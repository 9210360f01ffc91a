/-
# Assay.Files.Tree -- the files of a host

A `FileTree` holds the nodes of a host by *location*: the absolute path in which
every name is a real one, a slash before each, the root being empty.  `resolve`
follows a path from a directory to its location, and only what is a directory can
be passed through.  Looking never changes the tree.

A file that was opened need not take all that is written to it: what the storage does
with a content, and what it tells the writer, is part of the tree (`Storing`).
-/
import Assay.KeyMap
import Assay.Files.Path

namespace Assay

set_option autoImplicit false

open Bytes

/-- Why the host refuses an operation on files. -/
inductive FileError where
  | missing
  | notDirectory
  | isDirectory
  | nameTooLong
  | invalid
  | exists
  | notEmpty
  | denied
  | busy
  | full
  deriving DecidableEq, Repr

def FileError.message : FileError → Bytes
  | .missing => ascii "No such file or directory"
  | .notDirectory => ascii "Not a directory"
  | .isDirectory => ascii "Is a directory"
  | .nameTooLong => ascii "File name too long"
  | .invalid => ascii "Invalid argument"
  | .exists => ascii "File exists"
  | .notEmpty => ascii "Directory not empty"
  | .denied => ascii "Permission denied"
  | .busy => ascii "Device or resource busy"
  | .full => ascii "No space left on device"

/-- What stands at a location. -/
inductive Node where
  | directory
  /-- A regular file with its content and its mode bits. -/
  | file (content : Bytes) (mode : Nat)
  /-- A program of the host, known by its name. -/
  | program (name : Bytes)
  /-- The device that reads as empty and forgets what is written. -/
  | nullDevice
  deriving DecidableEq, Repr

/-- What becomes of a content that is written to a file which could be opened. -/
structure Storing where
  /-- How many of its bytes are stored, from the front. -/
  kept : Nat
  /-- Whether the writer is told that it was written.  It is told as soon as the content has
  left its hands, and that may be before any of it is stored. -/
  told : Bool
  deriving DecidableEq, Repr

/-- All of a content is stored. -/
def Storing.whole (content : Bytes) : Storing :=
  ⟨content.length, true⟩

/-- The files of a host.  When `guarded`, a file refuses reading or writing that
its owner's mode bits do not allow.  What becomes of a content at a location is up to the
storage. -/
structure FileTree where
  nodes : KeyMap Node
  guarded : Bool
  storing : Bytes → Bytes → Storing

namespace FileTree

/-- No files, on a storage that keeps whatever it is given. -/
def bare (guarded : Bool) : FileTree :=
  ⟨∅, guarded, fun _ content => .whole content⟩

/-- The location of a name in the directory at a location. -/
def child (location name : Bytes) : Bytes :=
  location ++ slash :: name

/-- The location of the directory that holds a location; the root holds itself. -/
def holder (location : Bytes) : Bytes :=
  ((location.reverse.dropWhile (· != slash)).drop 1).reverse

/-- Whether a location lies inside the directory at another one. -/
def isInside (location outer : Bytes) : Bool :=
  startsWith location (outer ++ [slash])

/-- What stands at a location; the root is a directory. -/
def node? (tree : FileTree) (location : Bytes) : Option Node :=
  if location.isEmpty then some .directory else tree.nodes.get? location

/-- The longest name that a directory holds. -/
def longestName : Nat := 255

/-- Paths have to be shorter than this. -/
def pathLimit : Nat := 4096

/-- Follow names from a location.  All but the end of the way must be directories. -/
def walk (tree : FileTree) : Bytes → List Bytes → Except FileError Bytes
  | location, [] => .ok location
  | location, name :: rest =>
      match tree.node? location with
      | none => .error .missing
      | some .directory =>
          if name.isEmpty || name == Path.here then walk tree location rest
          else if name == Path.above then walk tree (holder location) rest
          else if longestName < name.length then .error .nameTooLong
          else walk tree (child location name) rest
      | some _ => .error .notDirectory

/-- The part of a path that the host looks at: a zero byte ends it. -/
def spelled (path : Bytes) : Bytes :=
  path.takeWhile (· != 0)

/-- The location that a path leads to, seen from the directory at `base`; nothing
need stand there yet. -/
def resolve (tree : FileTree) (base path : Bytes) : Except FileError Bytes :=
  let path := spelled path
  if path.isEmpty then .error .missing
  else if pathLimit ≤ path.length then .error .nameTooLong
  else tree.walk (if Path.isAbsolute path then [] else base) (Path.names path)

/-- What a path leads to. -/
def look (tree : FileTree) (base path : Bytes) : Except FileError Node := do
  match tree.node? (← tree.resolve base path) with
  | some node => .ok node
  | none => .error .missing

def pathExists (tree : FileTree) (base path : Bytes) : Bool :=
  match tree.look base path with
  | .ok _ => true
  | .error _ => false

def isDirectory (tree : FileTree) (base path : Bytes) : Bool :=
  match tree.look base path with
  | .ok .directory => true
  | _ => false

def isRegular (tree : FileTree) (base path : Bytes) : Bool :=
  match tree.look base path with
  | .ok (.file ..) => true
  | .ok (.program _) => true
  | _ => false

/-- The owner's mode bits. -/
def ownerRead : Nat := 0o400
def ownerWrite : Nat := 0o200
def ownerExecute : Nat := 0o100

/-- The three bits that let someone run a file. -/
def anyExecute : Nat := 0o111

/-- The modes of a new file and of a program of the host. -/
def newFileMode : Nat := 0o644
def programMode : Nat := 0o755

def mode? (tree : FileTree) (base path : Bytes) : Option Nat :=
  match tree.look base path with
  | .ok (.file _ mode) => some mode
  | .ok .directory => some programMode
  | .ok (.program _) => some programMode
  | .ok .nullDevice => some 0o666
  | .error _ => none

/-- A regular file that someone may run. -/
def isExecutable (tree : FileTree) (base path : Bytes) : Bool :=
  match tree.look base path with
  | .ok (.file _ mode) => mode &&& anyExecute != 0
  | .ok (.program _) => true
  | _ => false

def allows (tree : FileTree) (mode bit : Nat) : Bool :=
  !tree.guarded || mode &&& bit != 0

/-- Whether a node that stands may be used in the way of a mode bit.  Only files have bits
that can be taken away. -/
def permits (tree : FileTree) (node : Node) (bit : Nat) : Bool :=
  match node with
  | .file _ mode => tree.allows mode bit
  | _ => true

/-- The content of the file that a path leads to. -/
def read (tree : FileTree) (base path : Bytes) : Except FileError Bytes := do
  match ← tree.look base path with
  | .directory => .error .isDirectory
  | .file content mode => if tree.allows mode ownerRead then .ok content else .error .denied
  | .program _ => .ok []
  | .nullDevice => .ok []

/-- The content of a file, or nothing when it cannot be read. -/
def text (tree : FileTree) (base path : Bytes) : Bytes :=
  match tree.read base path with
  | .ok content => content
  | .error _ => []

/-- The locations inside the directory at a location, in order, with what stands there. -/
def inside (tree : FileTree) (location : Bytes) : List (Bytes × Node) :=
  tree.nodes.toList.filter fun entry => isInside entry.1 location

/-- The names that the directory at a location holds, in order. -/
def listing (tree : FileTree) (location : Bytes) : List Bytes :=
  (tree.inside location).filterMap fun entry =>
    if holder entry.1 == location then some (Path.lastName entry.1) else none

end FileTree

end Assay
