/-
# Assay.Outer.Machine.Builtin -- commands that need no other command

The commands of a shell and the small programs of a machine that look at their
arguments, read, print, change the process or wait, but run nothing themselves.
Each sets the exit status of the process and tells how it ends.
-/
import Assay.Outer.Machine.Condition
import Assay.Outer.Machine.Field

namespace Assay.Outer.Machine

set_option autoImplicit false

open Bytes

/-- A command that ends with a status. -/
def ends (status : Nat) : Running Flow := do
  setStatus status
  return .next

def outlook : Running Outlook := do
  let state ← get
  return ⟨state.world.files, state.process.directory⟩

/-- What a path leads to, seen from the directory of the process. -/
def lookAt (path : Bytes) : Running (Except FileError Node) := do
  let state ← get
  return state.world.files.look state.process.directory path

/-! ## Printing and testing -/

def runEcho (flavour : Flavour) (arguments : List Bytes) : Running Flow := do
  ends (← say (echoText flavour arguments))

def runPrintf (arguments : List Bytes) : Running Flow := do
  let (text, status) := printfText arguments
  let written ← say text
  if arguments.isEmpty then complain (ascii "printf: usage: printf format [arg ...]")
  ends (max status written)

def runTest (bracketed : Bool) (arguments : List Bytes) : Running Flow := do
  if bracketed && arguments.getLast? != some (ascii "]") then
    complain (ascii "[: missing ]")
    ends 2
  else
    ends (testStatus (← outlook) (if bracketed then arguments.dropLast else arguments))

def runCat (arguments : List Bytes) : Running Flow := do
  let names := arguments.filter fun word => word == ascii "-" || word.head? != some 45
  let mut status := 0
  for name in (if names.isEmpty then [ascii "-"] else names) do
    if name == ascii "-" then
      let text ← peek 0
      leaveUnread 0 []
      status := max status (← say text)
    else
      let state ← get
      match state.world.files.read state.process.directory name with
      | .ok text => status := max status (← say text)
      | .error reason =>
          let _ ← write 2 (ascii "cat: " ++ name ++ ascii ": " ++ reason.message ++ [newline])
          status := 1
  ends status

/-- Move one file or directory, into the target when that is a directory; answers the
status. -/
def moveTo (target source : Bytes) : Running Nat := do
  let state ← get
  let files := state.world.files
  let base := state.process.directory
  let goal := if files.isDirectory base target then Path.under target (Path.lastName source)
    else target
  match files.rename base source goal with
  | .ok moved =>
      modifyWorld fun world => { world with files := moved }
      return 0
  | .error reason =>
      let _ ← write 2 (ascii "mv: cannot move '" ++ source ++ ascii "' to '" ++ goal ++
        ascii "': " ++ reason.message ++ [newline])
      return 1

def runMove (arguments : List Bytes) : Running Flow := do
  let names := arguments.filter fun word => word.head? != some 45
  let mut status := if names.length < 2 then 1 else 0
  for source in names.dropLast do
    status := max status (← moveTo (names.getLastD []) source)
  ends status

/-- Where the device is that takes nothing. -/
def fullDevice : Bytes := ascii "/dev/full"

/-- What is shorter than this has left the hands of its writer before it is stored. -/
def heldBack : Nat := 1024

/-- The files when what is written to a location goes to a storage. -/
def withStoring (files : FileTree) (location : Bytes) (storing : Bytes → Storing) : FileTree :=
  { files with storing := fun other content =>
      if other = location then storing content else files.storing other content }

/-- A file at a location that leads to the device that takes nothing. -/
def putFull (files : FileTree) (location : Bytes) : FileTree :=
  withStoring (files.put location (.file [] FileTree.newFileMode)) location fun content =>
    ⟨0, decide (content.length < heldBack)⟩

/-- Make a link.  The machine has links to the device that takes nothing only. -/
def runLink (arguments : List Bytes) : Running Flow := do
  let state ← get
  match arguments.filter fun word => word.head? != some 45 with
  | [target, name] =>
      match state.world.files.resolve state.process.directory name, target == fullDevice with
      | .ok location, true =>
          modifyWorld fun world => { world with files := putFull world.files location }
          ends 0
      | _, _ => ends 1
  | _ => ends 1

/-- Remove one file; answers the status. -/
def removeFile (force : Bool) (path : Bytes) : Running Nat := do
  let state ← get
  let files := state.world.files
  match files.resolve state.process.directory path, files.look state.process.directory path with
  | .ok location, .ok (.file ..) =>
      modifyWorld fun world =>
        { world with files := withStoring (files.dropAt location) location .whole }
      return 0
  | _, found =>
      let reason := match found with
        | .ok _ => FileError.isDirectory
        | .error reason => reason
      if force && reason == .missing then return 0
      let _ ← write 2 (ascii "rm: cannot remove '" ++ path ++ ascii "': " ++ reason.message ++
        [newline])
      return 1

def runRemove (arguments : List Bytes) : Running Flow := do
  let force := arguments.elem (ascii "-f")
  let mut status := 0
  for path in arguments.filter fun word => word.head? != some 45 do
    status := max status (← removeFile force path)
  ends status

def runPwd : Running Flow := do
  let directory := (← getProcess).directory
  ends (← say ((if directory.isEmpty then [slash] else directory) ++ [newline]))

def runEnvironment : Running Flow := do
  let lines := (← getProcess).environ.map fun entry =>
    entry.1 ++ equals :: entry.2 ++ [newline]
  ends (← say lines.flatten)

/-! ## Time -/

def runSleep (arguments : List Bytes) : Running Flow := do
  if arguments == [ascii "infinity"] then
    match (← getWorld).deadline with
    | some deadline =>
        let _ ← pass deadline
        return .late
    | none => return .late
  match arguments.mapM duration? with
  | some (first :: rest) =>
      if ← pass (rest.foldl (· + ·) first) then return .late
      ends 0
  | _ =>
      let _ ← write 2 (ascii "sleep: invalid time interval" ++ [newline])
      ends 1

/-! ## Directories and variables -/

def runCd (arguments : List Bytes) : Running Flow := do
  let process ← getProcess
  let goal := match arguments.filter fun word => word.head? != some 45 || word == ascii "-" with
    | [] => (process.textOf? (ascii "HOME")).getD []
    | word :: _ => if word == ascii "-" then (process.textOf? (ascii "OLDPWD")).getD [] else word
  if goal.isEmpty then ends 0
  else
    let files := (← getWorld).files
    match files.resolve process.directory goal, files.isDirectory process.directory goal with
    | .ok location, true => do
        let shown := fun (place : Bytes) => if place.isEmpty then [slash] else place
        modifyProcess fun process =>
          ({ process with directory := location }.assign (ascii "OLDPWD")
            (shown process.directory)).assign (ascii "PWD") (shown location)
        ends 0
    | _, _ => do
        complain (ascii "cd: can't cd to " ++ goal)
        ends 2

def runShift (arguments : List Bytes) : Running Flow := do
  let process ← getProcess
  let count := match arguments with
    | [] => 1
    | word :: _ => digitsValue word
  if process.arguments.length < count then
    complain (ascii "shift: can't shift that many")
    ends 2
  else
    modifyProcess fun process => { process with arguments := process.arguments.drop count }
    ends 0

def runUnset (arguments : List Bytes) : Running Flow := do
  for name in arguments do
    modifyProcess fun process => { process with
      bindings := process.bindings.erase name
      functions := process.functions.filter fun entry => entry.1 != name }
  ends 0

def runExport (arguments : List Bytes) : Running Flow := do
  for word in arguments do
    if word.head? != some 45 then
      match cut? [equals] word with
      | some (name, text) => modifyProcess (·.exportAs name text)
      | none =>
          modifyProcess fun process =>
            match process.textOf? word with
            | some text => process.exportAs word text
            | none => process
  ends 0

/-- Variables that a function keeps to itself are set like any other. -/
def runLocal (arguments : List Bytes) : Running Flow := do
  for word in arguments do
    match cut? [equals] word with
    | some (name, text) => modifyProcess (·.assign name text)
    | none => pure ()
  ends 0

def runSet (arguments : List Bytes) : Running Flow := do
  match arguments with
  | [] => ends 0
  | word :: rest =>
      if word == ascii "--" then
        modifyProcess fun process => { process with arguments := rest }
      else if word.head? == some 45 || word.head? == some 43 then
        if word.tail.elem 101 then
          modifyProcess fun process => { process with stopsOnFailure := word.head? == some 45 }
        if !rest.isEmpty && word.tail != ascii "o" then
          let rest := if rest.head? == some (ascii "--") then rest.tail else rest
          modifyProcess fun process => { process with arguments := rest }
      else modifyProcess fun process => { process with arguments := word :: rest }
      ends 0

/-- Cut a line into as many fields as there are names, the last getting the rest. -/
def fieldsFor (separators : Bytes) : Nat → Bytes → List Bytes
  | 0, _ => []
  | 1, text =>
      let soft := fun b => separators.elem b && usualSeparators.elem b
      [((text.dropWhile soft).reverse.dropWhile soft).reverse]
  | count + 1, text =>
      let soft := fun b => separators.elem b && usualSeparators.elem b
      let text := text.dropWhile soft
      let field := text.takeWhile fun b => !separators.elem b
      let behind := (text.drop field.length).dropWhile soft
      let behind := if (text.drop field.length).all soft then []
        else if behind.head?.any (separators.elem ·) then behind.tail else behind
      field :: fieldsFor separators count behind

/-- Take a line off a text: the line, whether it had an end, and the rest.  Unless
`verbatim`, a backslash keeps the next byte and joins lines. -/
def takeLine (verbatim : Bool) : Nat → Bytes → Bytes × Bool × Bytes
  | 0, text => ([], false, text)
  | _, [] => ([], false, [])
  | steps + 1, b :: rest =>
      if b = newline then ([], true, rest)
      else if b = backslash ∧ !verbatim then
        match rest with
        | [] => ([], false, [])
        | c :: more =>
            let (line, ended, after) := takeLine verbatim steps more
            if c = newline then (line, ended, after) else (c :: line, ended, after)
      else
        let (line, ended, after) := takeLine verbatim steps rest
        (b :: line, ended, after)

def runRead (arguments : List Bytes) : Running Flow := do
  let verbatim := arguments.any fun word => word.head? == some 45 && word.elem 114
  let names := arguments.filter fun word => word.head? != some 45
  let names := if names.isEmpty then [ascii "REPLY"] else names
  let text ← peek 0
  let (line, ended, after) := takeLine verbatim (text.length + 1) text
  leaveUnread 0 after
  let process ← getProcess
  for entry in names.zip (fieldsFor process.separators names.length line) do
    modifyProcess (·.assign entry.1 entry.2)
  ends (if ended then 0 else 1)

/-! ## Signals -/

def runTrap (arguments : List Bytes) : Running Flow := do
  match arguments with
  | [] => ends 0
  | action :: names =>
      let numbers := names.filterMap signal?
      if names.isEmpty then ends 0
      else
        modifyProcess fun process =>
          let handlers := process.handlers.filter fun entry => !numbers.elem entry.1
          let ignored := process.ignored.filter fun signal => !numbers.elem signal
          if action == ascii "-" then { process with handlers, ignored }
          else if action.isEmpty then { process with handlers, ignored := numbers ++ ignored }
          else { process with handlers := numbers.map (·, action) ++ handlers, ignored }
        ends (if numbers.length == names.length then 0 else 1)

/-- Split the arguments of `kill` into the signal and the processes. -/
def killTargets (arguments : List Bytes) : Option (Nat × List Bytes) :=
  match arguments with
  | word :: rest =>
      if word == ascii "-s" then
        match rest with
        | name :: targets => (signal? name).map fun signal => (signal, targets)
        | [] => none
      else if word == ascii "--" then some (signalTerminate, rest)
      else if word.head? == some 45 then
        (signal? word.tail).map fun signal =>
          (signal, if rest.head? == some (ascii "--") then rest.tail else rest)
      else some (signalTerminate, arguments)
  | [] => none

end Assay.Outer.Machine
