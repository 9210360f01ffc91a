/-
# Assay.Files.Change -- changing the files of a host

Every change answers with the tree afterwards or with the reason of its refusal.
Making directories and copying can stop half way; they answer with both, since
what was done before the refusal stays.
-/
import Assay.Files.Tree

namespace Assay.FileTree

set_option autoImplicit false

open Bytes

def put (tree : FileTree) (location : Bytes) (node : Node) : FileTree :=
  { tree with nodes := tree.nodes.insert location node }

/-- Take away what stands at a location and inside it. -/
def dropAt (tree : FileTree) (location : Bytes) : FileTree :=
  { tree with nodes := tree.nodes.filter fun other _ => other != location && !isInside other location }

/-- The content of the file at a location made anew from what it was.  The
directory that holds the location is there, as `resolve` leads nowhere else. -/
def rewriteAt (tree : FileTree) (location : Bytes) (change : Bytes → Bytes) :
    Except FileError FileTree :=
  match tree.node? location with
  | none => .ok (tree.put location (.file (change []) newFileMode))
  | some .directory => .error .isDirectory
  | some .nullDevice => .ok tree
  | some (.program _) => .error .busy
  | some (.file content mode) =>
      if tree.allows mode ownerWrite then .ok (tree.put location (.file (change content) mode))
      else .error .denied

/-- Make the file at a path have this content. -/
def write (tree : FileTree) (base path content : Bytes) : Except FileError FileTree := do
  tree.rewriteAt (← tree.resolve base path) fun _ => content

/-- Add to the end of the file at a path, which need not exist. -/
def append (tree : FileTree) (base path content : Bytes) : Except FileError FileTree := do
  tree.rewriteAt (← tree.resolve base path) (· ++ content)

def setMode (tree : FileTree) (base path : Bytes) (change : Nat → Nat) :
    Except FileError FileTree := do
  let location ← tree.resolve base path
  match tree.node? location with
  | some (.file content mode) => .ok (tree.put location (.file content (change mode)))
  | some _ => .ok tree
  | none => .error .missing

/-! ## Directories -/

/-- Make one directory; one that is there already is left alone. -/
def makeDirectory (tree : FileTree) (base path : Bytes) : Except FileError FileTree := do
  let location ← tree.resolve base path
  match tree.node? location with
  | some .directory => .ok tree
  | some _ => .error .notDirectory
  | none => .ok (tree.put location .directory)

/-- The paths of the directories to make, outermost first, so that `path` can be
made after them: walk up the text of the path until something is there. -/
def missingAbove (tree : FileTree) (base : Bytes) :
    Nat → Bytes → List Bytes → Except FileError (List Bytes)
  | 0, _, found => .ok found
  | steps + 1, path, found =>
      let name := Path.lastName path
      let found := if name == Path.here || name == Path.above then found else path :: found
      let outer := Path.parent path
      if outer.isEmpty then .ok found
      else
        match tree.look base outer with
        | .ok .directory => .ok found
        | .ok _ => .error .notDirectory
        | .error .missing => missingAbove tree base steps outer found
        | .error .notDirectory => missingAbove tree base steps outer found
        | .error reason => .error reason

/-- Make the directories in order, up to the first refusal. -/
def makeEach (base : Bytes) : List Bytes → FileTree → FileTree × Option FileError
  | [], tree => (tree, none)
  | path :: rest, tree =>
      match tree.makeDirectory base path with
      | .ok tree => makeEach base rest tree
      | .error reason => (tree, some reason)

/-- Make the directory at a path and all above it that are missing. -/
def makeDirectories (tree : FileTree) (base path : Bytes) : FileTree × Option FileError :=
  if path.isEmpty then (tree, some .invalid)
  else
    match tree.look base path with
    | .ok .directory => (tree, none)
    | .ok _ => (tree, some .notDirectory)
    | .error .missing | .error .notDirectory =>
        let bare := if (Path.lastName path).isEmpty then Path.parent path else path
        match tree.missingAbove base (bare.length + 1) bare [] with
        | .error reason => (tree, some reason)
        | .ok missing => makeEach base missing tree
    | .error reason => (tree, some reason)

/-- What the storage keeps of a content where a path leads. -/
def kept (tree : FileTree) (base path content : Bytes) : Bytes :=
  match tree.resolve base path with
  | .ok location => content.take (tree.storing location content).kept
  | .error _ => []

/-- What the storage tells someone who writes a content where a path leads. -/
def told (tree : FileTree) (base path content : Bytes) : Option FileError :=
  match tree.resolve base path with
  | .ok location => if (tree.storing location content).told then none else some .full
  | .error reason => some reason

/-- Make the directories above a file, then the file, which takes of the content what the
storage keeps. -/
def writeWithParents (tree : FileTree) (base path content : Bytes) : FileTree × Option FileError :=
  let above := Path.parent path
  let tree := if above.isEmpty then tree else (tree.makeDirectories base above).1
  match tree.write base path (tree.kept base path content) with
  | .ok after => (after, tree.told base path content)
  | .error reason => (tree, some reason)

/-! ## Moving and copying -/

/-- A path whose last name is no name of its own cannot be moved or removed. -/
def namesItself (path : Bytes) : Bool :=
  let last := ((Path.names (spelled path)).filter fun name => !name.isEmpty).getLast?
  last != none && last != some Path.here && last != some Path.above

/-- Put what stands at `source` and inside it at `target` instead. -/
def moveAt (tree : FileTree) (source target : Bytes) (node : Node) : FileTree :=
  let moved := (tree.inside source).map fun entry => (target ++ entry.1.drop source.length, entry.2)
  let cleared := tree.dropAt source
  moved.foldl (fun tree entry => tree.put entry.1 entry.2) (cleared.put target node)

/-- Give what a path leads to another place.  A file takes the place of a file, a
directory only that of an empty directory. -/
def rename (tree : FileTree) (base source target : Bytes) : Except FileError FileTree := do
  let origin ← tree.resolve base source
  let goal ← tree.resolve base target
  if !namesItself source || !namesItself target then .error .busy
  else
    match tree.node? origin with
    | none => .error .missing
    | some node =>
        if origin = goal then .ok tree
        else if isInside goal origin then .error .invalid
        else
          match node, tree.node? goal with
          | _, none => .ok (tree.moveAt origin goal node)
          | .directory, some .directory =>
              if (tree.inside goal).isEmpty then .ok (tree.moveAt origin goal node)
              else .error .notEmpty
          | .directory, some _ => .error .notDirectory
          | _, some .directory => .error .isDirectory
          | _, some _ => .ok (tree.moveAt origin goal node)

/-- Where a location is when what stood within `origin` was given the place of `goal`. -/
def carry (origin goal location : Bytes) : Bytes :=
  if location = origin ∨ isInside location origin = true then goal ++ location.drop origin.length
  else location

/-- Copy one node onto a location whose directory is there.  Programs are files, too; a
file is read, and one that is in its way is written over. -/
def copyNode (tree : FileTree) (node : Node) (target : Bytes) : FileTree × Option FileError :=
  match node, tree.node? target with
  | .nullDevice, _ => (tree, some .invalid)
  | _, some .nullDevice => (tree, some .invalid)
  | .directory, none => (tree.put target .directory, none)
  | .directory, some .directory => (tree, none)
  | .directory, some _ => (tree, some .isDirectory)
  | _, some .directory => (tree, some .invalid)
  | node, standing =>
      if tree.permits node ownerRead && standing.all (tree.permits · ownerWrite) then
        (tree.put target node, none)
      else (tree, some .denied)

/-- Where a node goes that is copied to a location: a file that meets a directory goes into
it under its own name. -/
def landing (tree : FileTree) (goal : Bytes) (node : Node) (name : Bytes) : Bytes :=
  match node, tree.node? goal with
  | .directory, _ => goal
  | _, some .directory => child goal name
  | _, _ => goal

/-- Copy entries in order, `source` exchanged for `target`, up to the first refusal.  A file
is not copied onto itself. -/
def copyEach (source target : Bytes) :
    List (Bytes × Node) → FileTree → FileTree × Option FileError
  | [], tree => (tree, none)
  | (location, node) :: rest, tree =>
      let goal := tree.landing (target ++ location.drop source.length) node
        (Path.lastName location)
      if goal = location then (tree, some .exists)
      else
        match tree.copyNode node goal with
        | (tree, none) => copyEach source target rest tree
        | (tree, some reason) => (tree, some reason)

/-- Copy entries in order; the host may stop it after so many of them, for a reason of its own. -/
def copyUpTo (stop : Option (Nat × FileError)) (source target : Bytes)
    (entries : List (Bytes × Node)) (tree : FileTree) : FileTree × Option FileError :=
  match stop with
  | none => copyEach source target entries tree
  | some (count, reason) =>
      match copyEach source target (entries.take count) tree with
      | (tree, none) => (tree, some reason)
      | refused => refused

/-- Copy what a path leads to, with all that is inside it, over what is at the target.  A
directory cannot be copied into itself: the copy would have a copy in it, and so on until
their names are too long.  None of these is made here. -/
def copy (tree : FileTree) (stop : Option (Nat × FileError)) (base source target : Bytes) :
    FileTree × Option FileError :=
  match tree.resolve base source, tree.look base source with
  | .ok origin, .ok node =>
      match tree.resolve base target with
      | .error reason => (tree, some reason)
      | .ok goal =>
          if origin = goal then (tree, some .exists)
          else if isInside goal origin then (tree, some .nameTooLong)
          else copyUpTo stop origin goal ((origin, node) :: tree.inside origin) tree
  | _, .error reason => (tree, some reason)
  | .error reason, _ => (tree, some reason)

/-- What is to be removed with a location: all that is inside, and the location itself if the
path to it names it. -/
def goesWith (path location other : Bytes) : Bool :=
  isInside other location || (namesItself path && other == location)

/-- Remove all that is inside what a path leads to, and this too if the path names it.  What the
host does not let be removed is spared, and nobody is told of it. -/
def removeAll (tree : FileTree) (spared : Bytes → Bool) (base path : Bytes) : FileTree :=
  match tree.resolve base path with
  | .ok location =>
      let stays := fun other => spared other || !goesWith path location other
      { tree with nodes := tree.nodes.filter fun other _ => stays other }
  | .error _ => tree

end Assay.FileTree
