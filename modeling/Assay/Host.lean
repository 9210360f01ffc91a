/-
# Assay.Host -- the world that the program acts in

A `Host` is all that the program can see or change: files, the environment it was
started with, a pending request to shut down, the text streams, the sinks of the
log, and what has been asked of other programs so far.  Everything the program
does is an `Act`: a function of the host that answers and leaves a host behind.

Other programs are not part of the host.  What a launched program does is given
by a `Programs`, and a theorem about the library holds for every such behaviour.
-/
import Assay.Files.Change
import Assay.Bytes.Decimal
import Assay.Log.Level

namespace Assay

set_option autoImplicit false

open Bytes

namespace Log

/-- Where records go: a named text stream, or the file at a location.  A file that
was emptied when it was added is written at its own place in the file, which is
given; one that is added to is always written at its end. -/
inductive Sink where
  | stream (name : Bytes)
  | file (location : Bytes) (place : Option Nat)
  deriving DecidableEq, Repr

/-- The records below the threshold are dropped; all others go to every sink. -/
structure Logger where
  threshold : Level
  sinks : List Sink
  deriving DecidableEq, Repr

/-- A record as it is written. -/
def recordText (now : Bytes) (level : Level) (message : Bytes) : Bytes :=
  now ++ ascii " - " ++ level.name ++ ascii " - " ++ message ++ [newline]

end Log

/-- A program to be started. -/
structure Launch where
  /-- The path of the program. -/
  program : Bytes
  arguments : List Bytes
  /-- The environment, as `NAME=value` entries. -/
  environ : List Bytes
  /-- The path of the directory it starts in. -/
  directory : Bytes
  /-- What it reads from its standard input. -/
  input : Bytes
  deriving DecidableEq, Repr

/-- The world that the program acts in. -/
structure Host where
  files : FileTree
  /-- The location of the current directory. -/
  directory : Bytes
  /-- The environment, as `NAME=value` entries. -/
  environ : List Bytes
  /-- The signal that asked for a shutdown, zero for none. -/
  shutdown : Int
  /-- The time of day, as log records show it. -/
  now : Bytes
  /-- What the next random name is made from. -/
  seed : Nat
  logger : Log.Logger
  /-- What was written to each named stream, one piece for each time. -/
  streams : KeyMap (List Bytes)
  /-- The programs started so far, the last one first. -/
  launches : List Launch

/-- Something the program does. -/
abbrev Act := StateM Host

namespace Host

/-- The value of a variable: the first entry that sets it counts.  A name is read up to a
zero byte. -/
def getVariable? (host : Host) (name : Bytes) : Option Bytes :=
  let name := untilZero name
  if name.isEmpty then none
  else
    (host.environ.find? fun entry => startsWith entry (name ++ [equals])).map fun entry =>
      entry.drop (name.length + 1)

/-- The value of a variable, empty when it is not set. -/
def getVariable (host : Host) (name : Bytes) : Bytes :=
  (host.getVariable? name).getD []

def shutdownRequested (host : Host) : Bool :=
  host.shutdown != 0

/-! ## Files, seen from the current directory -/

def pathExists (host : Host) (path : Bytes) : Bool :=
  host.files.pathExists host.directory path

def isRegular (host : Host) (path : Bytes) : Bool :=
  host.files.isRegular host.directory path

/-- The content of a file, empty when it cannot be read. -/
def text (host : Host) (path : Bytes) : Bytes :=
  host.files.text host.directory path

/-- The current directory as a path. -/
def directoryPath (host : Host) : Bytes :=
  if host.directory.isEmpty then [slash] else host.directory

end Host

/-! ## Acts on the host -/

/-- Write a piece of text to a named stream. -/
def emit (stream text : Bytes) : Act Unit :=
  modify fun host =>
    let earlier := (host.streams.get? stream).getD []
    { host with streams := host.streams.insert stream (earlier ++ [text]) }

/-- The names of the two streams that every program has. -/
def outputStream : Bytes := ascii "output"
def errorStream : Bytes := ascii "error"

/-- Write a file, making the directories above it; answers whether the writer was told that
it was written. -/
def writeFile (path content : Bytes) : Act Bool :=
  modifyGet fun host =>
    let done := host.files.writeWithParents host.directory path content
    (done.2.isNone, { host with files := done.1 })

/-- Make a directory and all above it; answers why it was refused, if it was. -/
def makeDirectories (path : Bytes) : Act (Option FileError) :=
  modifyGet fun host =>
    let done := host.files.makeDirectories host.directory path
    (done.2, { host with files := done.1 })

def requestShutdown (signal : Int) : Act Unit :=
  modify fun host => { host with shutdown := signal }

/-! ## Random names -/

/-- The seed after one more digit. -/
def nextSeed (seed : Nat) : Nat :=
  (seed * 6364136223846793005 + 1442695040888963407) % 18446744073709551616

/-- Hexadecimal digits made from a seed. -/
def hexDigits : Nat → Nat → Bytes
  | 0, _ => []
  | count + 1, seed =>
      let digit := seed / 8589934592 % 16
      (if digit < 10 then (48 + digit).toUInt8 else (87 + digit).toUInt8) ::
        hexDigits count (nextSeed seed)

/-- A random name of `length` hexadecimal digits. -/
def randomHex (length : Nat) : Act Bytes :=
  modifyGet fun host =>
    (hexDigits length host.seed, { host with seed := nextSeed (host.seed + length) })

/-! ## Logging -/

namespace Log

/-- Put text into a content at a place; what lies behind it stays. -/
def overwrite (place : Nat) (text content : Bytes) : Bytes :=
  content.take place ++ List.replicate (place - content.length) 0 ++ text ++
    content.drop (place + text.length)

/-- Write a record to one sink; answers the sink as it is for the next record. -/
def writeTo (text : Bytes) : Sink → Act Sink
  | .stream name => do
      emit name text
      return .stream name
  | .file location place =>
      modifyGet fun host =>
        let change := match place with
          | none => (· ++ text)
          | some place => overwrite place text
        match host.files.rewriteAt location change with
        | .ok files => (.file location (place.map (· + text.length)), { host with files := files })
        | .error _ => (.file location place, host)

def writeToAll (text : Bytes) : List Sink → Act (List Sink)
  | [] => return []
  | sink :: rest => do
      let sink ← writeTo text sink
      return sink :: (← writeToAll text rest)

def Sink.isFile : Sink → Bool
  | .file .. => true
  | .stream _ => false

/-- Log a message: the files get it first, then the streams. -/
def log (level : Level) (message : Bytes) : Act Unit := do
  let host ← get
  if level.rank < host.logger.threshold.rank then return
  let sinks ← writeToAll (recordText host.now level message) host.logger.sinks
  modify fun host => { host with logger := { host.logger with sinks := sinks } }

def debug (message : Bytes) : Act Unit := log .debug message
def info (message : Bytes) : Act Unit := log .info message
def warn (message : Bytes) : Act Unit := log .warn message
def error (message : Bytes) : Act Unit := log .error message

def setThreshold (level : Level) : Act Unit :=
  modify fun host => { host with logger := { host.logger with threshold := level } }

/-- Add a sink behind the others of its kind, all files being before all streams. -/
def addSink (sink : Sink) : Act Unit :=
  modify fun host =>
    let sinks := host.logger.sinks ++ [sink]
    { host with logger := { host.logger with
        sinks := sinks.filter Sink.isFile ++ sinks.filter fun sink => !sink.isFile } }

def addStream (name : Bytes) : Act Unit :=
  addSink (.stream name)

/-- Add a file, emptied first unless `appending`; answers whether it could be opened. -/
def addFile (path : Bytes) (appending : Bool) : Act Bool := do
  let above := Path.parent path
  if !above.isEmpty then
    let _ ← makeDirectories above
  let host ← get
  match host.files.resolve host.directory path with
  | .error _ => return false
  | .ok location =>
      match host.files.rewriteAt location fun content => if appending then content else [] with
      | .error _ => return false
      | .ok files =>
          set { host with files := files }
          addSink (.file location (if appending then none else some 0))
          return true

/-- The logger of something that was given none: it writes to the error stream. -/
def Logger.standard : Logger :=
  ⟨.info, [.stream errorStream]⟩

end Log

end Assay
