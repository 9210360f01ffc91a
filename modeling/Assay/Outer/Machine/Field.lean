/-
# Assay.Outer.Machine.Field -- from expanded words to fields

The expansion of a word is a row of atoms: bytes, marks of an empty quoted text,
and gaps where a value is split.  `collect` gathers them into fields, and
`matching` replaces a field that is a pattern by the names that fit it.
-/
import Assay.Outer.Machine.Process

namespace Assay.Outer.Machine

set_option autoImplicit false

open Bytes

/-- A piece of an expanded word. -/
inductive Atom where
  | byte (value : UInt8) (quoted : Bool)
  /-- Something is here, be it empty. -/
  | present
  /-- A field ends; a hard gap ends one even when it is empty. -/
  | gap (hard : Bool)
  deriving Repr

def quotedAtoms (text : Bytes) : List Atom :=
  .present :: text.map (.byte · true)

/-- The bytes that split values unless a script says otherwise. -/
def usualSeparators : Bytes := [32, 9, 10]

def Process.separators (process : Process) : Bytes :=
  (process.textOf? (ascii "IFS")).getD usualSeparators

/-- A value that is not quoted, split at separators.  Blank separators beside another
one belong to it. -/
def splitAtoms (separators : Bytes) : Nat → Bytes → List Atom
  | 0, _ => []
  | _, [] => []
  | steps + 1, b :: rest =>
      if !separators.elem b then .byte b false :: splitAtoms separators steps rest
      else
        let soft := fun c => separators.elem c && usualSeparators.elem c
        let behind := (b :: rest).dropWhile soft
        match behind with
        | c :: more =>
            if separators.elem c then
              .gap true :: splitAtoms separators steps (more.dropWhile soft)
            else .gap false :: splitAtoms separators steps behind
        | [] => [.gap false]

def unquotedAtoms (process : Process) (text : Bytes) : List Atom :=
  splitAtoms process.separators (text.length + 1) text

/-- A value as atoms, split unless it is quoted. -/
def valueAtoms (process : Process) (quoted : Bool) (text : Bytes) : List Atom :=
  if quoted then quotedAtoms text else unquotedAtoms process text

/-- Gather atoms into fields; `current` is the field so far, if one has begun. -/
def collect : Option (List Mark) → List Atom → List (List Mark)
  | none, [] => []
  | some marks, [] => [marks]
  | current, .byte value quoted :: rest =>
      collect (some (current.getD [] ++ [(value, quoted)])) rest
  | current, .present :: rest => collect (some (current.getD [])) rest
  | none, .gap hard :: rest => if hard then [] :: collect none rest else collect none rest
  | some marks, .gap _ :: rest => marks :: collect none rest

/-- The atoms as one text, gaps being blanks. -/
def atomText (atoms : List Atom) : Bytes :=
  atoms.filterMap fun
    | .byte value _ => some value
    | .present => none
    | .gap _ => some space

/-- The atoms as a pattern. -/
def atomMarks (atoms : List Atom) : List Mark :=
  atoms.filterMap fun
    | .byte value quoted => some (value, quoted)
    | .present => none
    | .gap _ => some (space, true)

/-! ## Names that fit a pattern -/

/-- The names of a pattern, without the slashes between them. -/
def markNames : List Mark → List (List Mark)
  | [] => [[]]
  | mark :: rest =>
      if mark.1 = slash then [] :: markNames rest
      else
        match markNames rest with
        | [] => [[mark]]
        | name :: more => (mark :: name) :: more

/-- The names in a directory that fit a pattern; hidden ones only fit a dot. -/
def fittingNames (files : FileTree) (directory path : Bytes) (pattern : List Mark) : List Bytes :=
  match files.resolve directory (if path.isEmpty then Path.here else path) with
  | .error _ => []
  | .ok location =>
      (files.listing location).filter fun name =>
        (name.head? != some 46 || (pattern.head?.map (·.1)) == some 46) && fitsPattern pattern name

/-- Go on from paths by one more name of a pattern. -/
def extend (files : FileTree) (directory : Bytes) (paths : List Bytes) (pattern : List Mark) :
    List Bytes :=
  paths.flatMap fun path =>
    if isPattern pattern then (fittingNames files directory path pattern).map (path ++ ·)
    else [path ++ marksText pattern]

/-- The paths that fit a row of names. -/
def extendAll (files : FileTree) (directory : Bytes) : List Bytes → List (List Mark) → List Bytes
  | paths, [] => paths
  | paths, [last] => extend files directory paths last
  | paths, name :: rest =>
      extendAll files directory ((extend files directory paths name).map (· ++ [slash])) rest

/-- The paths that fit a field, or its own text when it is no pattern or nothing fits. -/
def matching (files : FileTree) (directory : Bytes) (field : List Mark) : List Bytes :=
  if isPattern field then
    let found := (extendAll files directory [[]] (markNames field)).filter
      (files.pathExists directory)
    if found.isEmpty then [marksText field] else found
  else [marksText field]

/-! ## Modifiers -/

/-- The longest or shortest start of a text that fits a pattern, taken off. -/
def dropFront (longest : Bool) (pattern : List Mark) (text : Bytes) : Bytes :=
  let lengths := List.range (text.length + 1)
  match (if longest then lengths.reverse else lengths).find? fun length =>
      fitsPattern pattern (text.take length) with
  | some length => text.drop length
  | none => text

/-- The longest or shortest end of a text that fits a pattern, taken off. -/
def dropBack (longest : Bool) (pattern : List Mark) (text : Bytes) : Bytes :=
  let lengths := List.range (text.length + 1)
  match (if longest then lengths.reverse else lengths).find? fun length =>
      fitsPattern pattern (text.drop (text.length - length)) with
  | some length => text.take (text.length - length)
  | none => text

/-! ## Assignments -/

/-- A word that sets a variable: its name and the word of its value. -/
def assignment? : Word → Option (Bytes × Word)
  | .text content false :: rest =>
      let name := content.takeWhile isNameByte
      let behind := content.drop name.length
      if isName name && behind.head? == some equals then
        let value := behind.tail
        some (name, if value.isEmpty then rest else .text value false :: rest)
      else none
  | _ => none

/-- The words in front of a command that set variables, and the others. -/
def splitAssignments : List Word → List (Bytes × Word) × List Word
  | [] => ([], [])
  | word :: rest =>
      match assignment? word with
      | some found =>
          let (more, words) := splitAssignments rest
          (found :: more, words)
      | none => ([], word :: rest)

end Assay.Outer.Machine
