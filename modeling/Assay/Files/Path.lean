/-
# Assay.Files.Path -- paths as texts

A path is a byte string whose names are separated by slashes.  These operations
look at the text alone; which file a path leads to is for the file tree to say.
-/
import Assay.Bytes.Basic

namespace Assay.Path

set_option autoImplicit false

open Bytes

def isAbsolute (path : Bytes) : Bool :=
  path.head? == some slash

/-- The path `inner` as seen from the directory `outer`. -/
def under (outer inner : Bytes) : Bytes :=
  if isAbsolute inner then inner
  else if outer.isEmpty || outer.getLast? == some slash then outer ++ inner
  else outer ++ slash :: inner

/-- The names of a path, in order; a slash at the end is followed by an empty one. -/
def names (path : Bytes) : List Bytes :=
  splitWhere (· == slash) path

/-- What follows the last slash. -/
def lastName (path : Bytes) : Bytes :=
  (path.reverse.takeWhile (· != slash)).reverse

/-- The path without its last name and the slashes before it, but never without
the slash that makes it absolute. -/
def parent (path : Bytes) : Bytes :=
  let upToSlash := (path.reverse.dropWhile (· != slash)).reverse
  let outer := (upToSlash.reverse.dropWhile (· == slash)).reverse
  if outer.isEmpty then upToSlash else outer

/-- The name that stands for the directory itself. -/
def here : Bytes := ascii "."

/-- The name that stands for the directory above. -/
def above : Bytes := ascii ".."

end Assay.Path
