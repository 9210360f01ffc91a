/-
# Assay.Main -- the program

The outer layer: it takes in the environment and the files around the program, runs
the command on a machine of its own, prints what the command wrote, and puts the
files that it changed back where they were.
-/
import Assay.Cli.Commands
import Assay.Json.Plain
import Assay.Log.Stamp
import Assay.Outer.Machine.Host

set_option autoImplicit false

namespace Assay.Outer

open Bytes

def bytesOf (array : ByteArray) : Bytes :=
  array.toList

def arrayOf (text : Bytes) : ByteArray :=
  ⟨text.toArray⟩

def bytesOfString (text : String) : Bytes :=
  bytesOf text.toUTF8

def stringOf (text : Bytes) : String :=
  (String.fromUTF8? (arrayOf text)).getD ""

/-- The content of a file, empty when it cannot be read. -/
def readOr (path : String) : IO Bytes := do
  try return bytesOf (← IO.FS.readBinFile path) catch _ => return []

/-- All that is left on a stream. -/
partial def drain (stream : IO.FS.Stream) (read : Bytes) : IO Bytes := do
  let piece ← stream.read 65536
  if piece.isEmpty then return read else drain stream (read ++ bytesOf piece)

/-- The mode of a file, by its content: what begins as a script may be run. -/
def modeOf (content : Bytes) : Nat :=
  if startsWith content (ascii "#!") then FileTree.programMode else FileTree.newFileMode

/-- Take a file, or a directory with all in it, into a tree. -/
partial def takeIn (entry : IO.FS.DirEntry) (files : FileTree) : IO FileTree := do
  let location := bytesOfString entry.path.toString
  if ← entry.path.isDir then
    let mut files := (files.makeDirectories [] location).1
    for inner in ← entry.path.readDir do
      files ← takeIn inner files
    return files
  else
    try
      let content := bytesOf (← IO.FS.readBinFile entry.path)
      let above := (files.makeDirectories [] (FileTree.holder location)).1
      return above.put location (.file content (modeOf content))
    catch _ => return files

/-- Put a node of a tree to its place. -/
def putBack (location : Bytes) : Node → IO Unit
  | .directory => IO.FS.createDirAll (stringOf location)
  | .file content _ => do
      IO.FS.createDirAll (stringOf (Path.parent location))
      IO.FS.writeBinFile (stringOf location) (arrayOf content)
  | _ => return

/-- Put what changed from one tree to another to its place. -/
def putChangesBack (before after : FileTree) : IO Unit := do
  for entry in before.nodes.toList do
    if (after.node? entry.1).isNone then
      match entry.2 with
      | .file .. => IO.FS.removeFile (stringOf entry.1)
      | _ => pure ()
  for entry in after.nodes.toList do
    if before.node? entry.1 != some entry.2 then putBack entry.1 entry.2

/-- Seconds since the beginning of the year 1970, from the time the host was started
and how long ago that is. -/
def secondsNow : IO Nat := do
  let started := ((lines (← readOr "/proc/stat")).find? fun line => startsWith line (ascii "btime ")).map
    fun line => digitsValue ((line.drop 6).takeWhile isDigit)
  let ago := digitsValue ((← readOr "/proc/uptime").takeWhile isDigit)
  return started.getD 0 + ago

/-- The places outside the current directory that commands use. -/
def sharedPlaces (home : Bytes) : List String :=
  [stringOf (Path.under home (ascii ".evalbox")), "/shared", "/app/data", "/app/src/eval",
    "/dev/shm/swe-sandbox", "/testbed"]

/-- The host as it is. -/
def currentHost : IO Host := do
  let environ := fieldsWhere (· == 0) (← readOr "/proc/self/environ")
  let here ← IO.currentDir
  let mut files := (Machine.plainFiles.makeDirectories [] (bytesOfString here.toString)).1
  for entry in ← here.readDir do
    files ← takeIn entry files
  let home := ((Environment.ofEntries environ).get? (ascii "HOME")).getD Path.here
  for place in sharedPlaces home do
    let entry : IO.FS.DirEntry := ⟨here, place⟩
    if ← entry.path.pathExists then files ← takeIn entry files
  return {
    files
    directory := bytesOfString here.toString
    environ
    shutdown := 0
    now := Log.stamp (← secondsNow)
    seed := ← IO.monoNanosNow
    logger := ⟨.info, []⟩
    streams := ∅
    launches := [] }

/-- What was written to a stream of the host. -/
def writtenTo (host : Host) (stream : Bytes) : ByteArray :=
  arrayOf ((host.streams.get? stream).getD []).flatten

end Assay.Outer

open Assay Assay.Outer in
def main (arguments : List String) : IO UInt32 := do
  let host ← currentHost
  let input ← if arguments.contains "-" then drain (← IO.getStdin) [] else pure []
  let tooling : Cli.Tooling := ⟨Json.plain, Machine.programs, Machine.spawner, input⟩
  let (code, after) := (Cli.run tooling (arguments.map bytesOfString)).run host
  (← IO.getStderr).write (writtenTo after errorStream)
  (← IO.getStdout).write (writtenTo after outputStream)
  putChangesBack host.files after.files
  return code.toNat.toUInt32
