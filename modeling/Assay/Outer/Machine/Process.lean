/-
# Assay.Outer.Machine.Process -- running processes and what they share

A `World` is what the processes of a machine share: files, a clock, and the open
channels that descriptors lead to.  A `Process` is one of them; a `State` is the
world with the process that runs now.  Nothing runs at the same time as something
else: a process that starts another one goes on when that one has ended.
-/
import Assay.Outer.Machine.Command
import Assay.Outer.Machine.Format
import Assay.Outer.Machine.Pattern
import Assay.Programs

namespace Assay.Outer.Machine

set_option autoImplicit false

open Bytes

/-- What a descriptor leads to. -/
inductive Channel where
  /-- One of the streams that the launcher gets. -/
  | captured (stream : Stream)
  | null
  /-- Text that is still to be read. -/
  | source (rest : Bytes)
  /-- The file at a location, written at a place or at its end. -/
  | file (location : Bytes) (place : Option Nat)
  /-- Text gathered for another command. -/
  | gathered (content : Bytes)
  deriving Repr

/-- What the processes of a machine share. -/
structure World where
  files : FileTree
  /-- Milliseconds since the launch. -/
  clock : Nat
  /-- When the process is stopped from outside, if ever. -/
  deadline : Option Nat
  channels : Array Channel
  /-- What was written to the captured streams, the last piece first. -/
  captured : List (Stream × Bytes)
  lastPid : Nat

/-- A variable: its text, and whether children get it. -/
structure Value where
  text : Bytes
  exported : Bool

/-- A running process. -/
structure Process where
  name : Bytes
  arguments : List Bytes
  bindings : KeyMap Value
  functions : List (Bytes × Command)
  /-- The location of its directory. -/
  directory : Bytes
  /-- Its descriptors, each with the channel it leads to. -/
  descriptors : List (Nat × Nat)
  status : Nat
  /-- The status of the last script whose output a command took. -/
  outputStatus : Nat
  pid : Nat
  stopsOnFailure : Bool
  /-- The signals that it ignores. -/
  ignored : List Nat
  /-- The scripts that it runs on signals, zero being its exit. -/
  handlers : List (Nat × Bytes)
  /-- An expansion went wrong. -/
  faulty : Bool
  flavour : Flavour

structure State where
  world : World
  process : Process

abbrev Running := StateM State

/-- How a command ends. -/
inductive Flow where
  /-- The next command follows. -/
  | next
  /-- So many loops are left. -/
  | leaves (levels : Nat)
  /-- The loop so many levels up goes on. -/
  | repeats (levels : Nat)
  /-- The function ends. -/
  | returns
  /-- The process ends. -/
  | exits
  /-- The process is killed by a signal. -/
  | killed (signal : Nat)
  /-- The deadline has come. -/
  | late
  deriving DecidableEq, Repr

def getProcess : Running Process := do
  return (← get).process

def getWorld : Running World := do
  return (← get).world

def modifyProcess (change : Process → Process) : Running Unit :=
  modify fun state => { state with process := change state.process }

def modifyWorld (change : World → World) : Running Unit :=
  modify fun state => { state with world := change state.world }

def setStatus (status : Nat) : Running Unit :=
  modifyProcess fun process => { process with status := status }

/-! ## Variables -/

def Process.textOf? (process : Process) (name : Bytes) : Option Bytes :=
  (process.bindings.get? name).map (·.text)

/-- Set a variable; it stays exported if it was. -/
def Process.assign (process : Process) (name text : Bytes) : Process :=
  let exported := (process.bindings.get? name).any (·.exported)
  { process with bindings := process.bindings.insert name ⟨text, exported⟩ }

/-- Set a variable that children get. -/
def Process.exportAs (process : Process) (name text : Bytes) : Process :=
  { process with bindings := process.bindings.insert name ⟨text, true⟩ }

/-- The environment that children get. -/
def Process.environ (process : Process) : List (Bytes × Bytes) :=
  process.bindings.toList.filterMap fun entry =>
    if entry.2.exported then some (entry.1, entry.2.text) else none

/-! ## Channels -/

/-- Open a channel; answers its number. -/
def openChannel (channel : Channel) : Running Nat := do
  let world ← getWorld
  modifyWorld fun world => { world with channels := world.channels.push channel }
  return world.channels.size

def setChannel (number : Nat) (channel : Channel) : Running Unit :=
  modifyWorld fun world => { world with channels := world.channels.setIfInBounds number channel }

def getChannel (number : Nat) : Running Channel := do
  return (← getWorld).channels[number]?.getD .null

/-- Let a descriptor lead to a channel. -/
def connect (descriptor number : Nat) : Running Unit :=
  modifyProcess fun process =>
    let others := process.descriptors.filter fun entry => entry.1 != descriptor
    { process with descriptors := (descriptor, number) :: others }

def disconnect (descriptor : Nat) : Running Unit :=
  modifyProcess fun process =>
    let others := process.descriptors.filter fun entry => entry.1 != descriptor
    { process with descriptors := others }

def channelOf? (descriptor : Nat) : Running (Option Nat) := do
  return ((← getProcess).descriptors.find? fun entry => entry.1 == descriptor).map (·.2)

/-- Write text to a channel. -/
def writeChannel (number : Nat) (text : Bytes) : Running Unit := do
  if text.isEmpty then return
  match ← getChannel number with
  | .captured stream =>
      modifyWorld fun world => { world with captured := (stream, text) :: world.captured }
  | .gathered content => setChannel number (.gathered (content ++ text))
  | .file location place =>
      let change := match place with
        | none => (· ++ text)
        | some place => Log.overwrite place text
      let files := (← getWorld).files
      match files.rewriteAt location change with
      | .ok files =>
          modifyWorld fun world => { world with files := files }
          setChannel number (.file location (place.map (· + text.length)))
      | .error _ => return
  | .null => return
  | .source _ => return

/-- Write text to a descriptor; answers whether it leads anywhere. -/
def write (descriptor : Nat) (text : Bytes) : Running Bool := do
  match ← channelOf? descriptor with
  | some number =>
      writeChannel number text
      return true
  | none => return false

/-- Write to the standard output; answers an exit status. -/
def say (text : Bytes) : Running Nat := do
  return if ← write 1 text then 0 else 1

/-- Write a complaint in the name of the process. -/
def complain (text : Bytes) : Running Unit := do
  let process ← getProcess
  let place := match process.flavour with
    | .plain => ascii ": 1: "
    | .extended => ascii ": line 1: "
  let _ ← write 2 (process.name ++ place ++ text ++ [newline])

/-- What is left to read from a descriptor. -/
def peek (descriptor : Nat) : Running Bytes := do
  match ← channelOf? descriptor with
  | some number =>
      match ← getChannel number with
      | .source rest => return rest
      | _ => return []
  | none => return []

/-- Go on behind what was read from a descriptor. -/
def leaveUnread (descriptor : Nat) (rest : Bytes) : Running Unit := do
  match ← channelOf? descriptor with
  | some number =>
      match ← getChannel number with
      | .source _ => setChannel number (.source rest)
      | _ => return
  | none => return

/-! ## Time -/

/-- Let time pass; tells whether the deadline comes before that. -/
def pass (milliseconds : Nat) : Running Bool := do
  let world ← getWorld
  let goal := world.clock + milliseconds
  match world.deadline with
  | some deadline =>
      if deadline ≤ goal then
        modifyWorld fun world => { world with clock := max world.clock deadline }
        return true
      else
        modifyWorld fun world => { world with clock := goal }
        return false
  | none =>
      modifyWorld fun world => { world with clock := goal }
      return false

/-- The milliseconds that an argument such as `0.2` or `2h` names. -/
def duration? (text : Bytes) : Option Nat :=
  let whole := text.takeWhile isDigit
  let rest := text.dropWhile isDigit
  let (part, unit) :=
    if rest.head? = some 46 then (rest.tail.takeWhile isDigit, rest.tail.dropWhile isDigit)
    else ([], rest)
  if whole.isEmpty && part.isEmpty then none
  else
    let thousandths := digitsValue ((part ++ [48, 48, 48]).take 3)
    let base := digitsValue whole * 1000 + thousandths
    if unit.isEmpty || unit == ascii "s" then some base
    else if unit == ascii "m" then some (base * 60)
    else if unit == ascii "h" then some (base * 3600)
    else if unit == ascii "d" then some (base * 86400)
    else none

/-! ## Signals -/

/-- The signals by their names. -/
def signalNames : List (Bytes × Nat) :=
  [(ascii "EXIT", 0), (ascii "HUP", 1), (ascii "INT", 2), (ascii "QUIT", 3), (ascii "ILL", 4),
    (ascii "TRAP", 5), (ascii "ABRT", 6), (ascii "BUS", 7), (ascii "FPE", 8), (ascii "KILL", 9),
    (ascii "USR1", 10), (ascii "SEGV", 11), (ascii "USR2", 12), (ascii "PIPE", 13),
    (ascii "ALRM", 14), (ascii "TERM", 15), (ascii "CHLD", 17), (ascii "CONT", 18),
    (ascii "STOP", 19)]

def signalKill : Nat := 9
def signalTerminate : Nat := 15

/-- The number of a signal given by number or name. -/
def signal? (text : Bytes) : Option Nat :=
  if !text.isEmpty && text.all isDigit then
    if digitsValue text < 65 then some (digitsValue text) else none
  else
    let upper := toUpper text
    let name := if startsWith upper (ascii "SIG") then upper.drop 3 else upper
    (signalNames.find? fun entry => entry.1 == name).map (·.2)

/-- The signals that do nothing to a process unless it asks for them. -/
def isHarmless (signal : Nat) : Bool :=
  signal == 0 || signal == 17 || signal == 18

end Assay.Outer.Machine
