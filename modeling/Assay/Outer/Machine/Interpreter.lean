/-
# Assay.Outer.Machine.Interpreter -- running scripts and programs

The shell runs a script line by line, expanding words as it comes to them, and
starts programs: those of the machine by name, and script files by the interpreter
that they name.  Every step down takes one unit of fuel, and every loop has a
bound, so that running always ends; what runs out of either counts as still
running when its deadline comes.
-/
import Assay.Outer.Machine.Arithmetic
import Assay.Outer.Machine.Builtin

namespace Assay.Outer.Machine

set_option autoImplicit false

open Bytes

/-- How many rounds of a loop are run at most. -/
def loopBound : Nat := 100000

/-- How deep commands may lie in each other. -/
def depthBound : Nat := 2000

/-- The search path of a shell that was given none. -/
def usualPath : Bytes :=
  ascii "/usr/local/sbin:/usr/local/bin:/usr/sbin:/usr/bin:/sbin:/bin"

/-- What is said of tokens that make no command. -/
def syntaxFault (script : List Token) : Bytes :=
  let unclosed := script.any fun
    | .broken => true
    | _ => false
  if unclosed then ascii "Syntax error: Unterminated quoted string" else ascii "Syntax error"

/-- Run something as a process of its own that shares nothing but the world. -/
def isolated (body : Running Flow) : Running Flow := do
  let saved ← getProcess
  modifyProcess fun process => { process with handlers := [] }
  let flow ← body
  let status := (← getProcess).status
  modifyProcess fun _ => { saved with status }
  match flow with
  | .late => return .late
  | .killed signal => return .killed signal
  | _ => return .next

/-- Run rounds until one tells how the loop ends.  Each is given the status of the one
before it. -/
def rounds (round : Nat → Running (Flow ⊕ Nat)) : Nat → Nat → Running Flow
  | 0, _ => return .late
  | bound + 1, status => do
      match ← round status with
      | .inl flow => return flow
      | .inr status => rounds round bound status

/-- What the end of a round means for its loop: none to go on. -/
def afterRound (flow : Flow) : Option Flow :=
  match flow with
  | .next => none
  | .repeats levels => if levels ≤ 1 then none else some (.repeats (levels - 1))
  | .leaves levels => if levels ≤ 1 then some .next else some (.leaves (levels - 1))
  | other => some other

/-- Run something in each of several states of a loop. -/
def roundsOver {α : Type} (round : α → Running Flow) : List α → Running Flow
  | [] => return .next
  | item :: rest => do
      match afterRound (← round item) with
      | some flow => return flow
      | none => roundsOver round rest

/-- The text between the hash mark, the exclamation mark and the end of the first line. -/
def interpreterLine? (content : Bytes) : Option Bytes :=
  if startsWith content (ascii "#!") then
    some (trim ((content.drop 2).takeWhile (· != newline)))
  else none

/-- The positional parameter of a number, the name of the script being the first. -/
def positional (process : Process) (number : Nat) : Option Bytes :=
  if number = 0 then some process.name else process.arguments[number - 1]?

/-- The value of a parameter. -/
def parameter? (process : Process) (name : Bytes) : Option Bytes :=
  if !name.isEmpty && name.all isDigit then positional process (digitsValue name)
  else if name = ascii "#" then some (ofNat process.arguments.length)
  else if name = ascii "?" then some (ofNat process.status)
  else if name = ascii "$" then some (ofNat process.pid)
  else if name = ascii "!" then some []
  else if name = ascii "-" then some (if process.stopsOnFailure then ascii "e" else [])
  else if name = ascii "@" ∨ name = ascii "*" then
    if process.arguments.isEmpty then none else some (join process.arguments [space])
  else process.textOf? name

/-- The positional parameters as atoms. -/
def argumentAtoms (process : Process) (name : Bytes) (quoted : Bool) : List Atom :=
  if quoted && name == ascii "*" then
    quotedAtoms (join process.arguments (process.separators.take 1))
  else
    ((process.arguments.map (valueAtoms process quoted)).intersperse [.gap quoted]).flatten

/-- The directory that a tilde in front of a word stands for. -/
def withHome (process : Process) : Word → Word
  | .text content false :: rest =>
      if content.head? == some 126 && ((content.drop 1).head?).all (· == slash) &&
          (content.length != 1 || rest.isEmpty) then
        match process.textOf? (ascii "HOME") with
        | some home => .text home true :: .text content.tail false :: rest
        | none => .text content false :: rest
      else .text content false :: rest
  | word => word

/-- Open what a redirection of a descriptor leads to: the number of its channel, none
to close the descriptor, or the reason of a refusal. -/
def openTarget (operator target : Bytes) : Running (Except Bytes (Option Nat)) := do
  let state ← get
  let files := state.world.files
  let base := state.process.directory
  if operator = ascii ">&" ∨ operator = ascii "<&" then
    if target = ascii "-" then return .ok none
    match ← channelOf? (digitsValue target) with
    | some number => return .ok (some number)
    | none => return .error (target ++ ascii ": Bad file descriptor")
  else if operator = ascii "<" then
    match files.read base target with
    | .ok content => return .ok (some (← openChannel (.source content)))
    | .error reason => return .error (ascii "cannot open " ++ target ++ ascii ": " ++ reason.message)
  else
    let appending := operator = ascii ">>" ∨ operator = ascii "<>"
    let opened := do
      let location ← files.resolve base target
      let changed ← files.rewriteAt location fun content => if appending then content else []
      .ok (location, changed)
    match opened with
    | .error reason =>
        return .error (ascii "cannot create " ++ target ++ ascii ": " ++ reason.message)
    | .ok (location, changed) =>
        modifyWorld fun world => { world with files := changed }
        if changed.node? location = some .nullDevice then return .ok (some (← openChannel .null))
        let place := if operator = ascii ">>" then none else some 0
        return .ok (some (← openChannel (.file location place)))

/-- The descriptor that an operator redirects when none is given. -/
def usualDescriptor (operator : Bytes) : Nat :=
  if operator.head? == some 60 then 0 else 1

/-- Connect a descriptor to what was opened for it; tells whether that went well. -/
def finishRedirect (descriptor : Nat) (opened : Except Bytes (Option Nat)) : Running Bool := do
  match opened with
  | .ok (some number) =>
      connect descriptor number
      return true
  | .ok none =>
      disconnect descriptor
      return true
  | .error reason =>
      complain reason
      setStatus 2
      return false

/-- The commands that the shell runs itself, besides those of the machine. -/
def shellWords : List Bytes :=
  [ascii ":", ascii "cd", ascii "shift", ascii "unset", ascii "export", ascii "readonly",
    ascii "local", ascii "set", ascii "read", ascii "trap", ascii "kill", ascii "exit",
    ascii "return", ascii "break", ascii "continue", ascii "eval", ascii ".", ascii "exec",
    ascii "wait", ascii "umask", ascii "command", ascii "type", ascii "true", ascii "false",
    ascii "echo", ascii "printf", ascii "test", ascii "[", ascii "pwd"]

/-- The status that an argument gives, else the present one. -/
def statusArgument (arguments : List Bytes) : Running Nat := do
  match arguments with
  | word :: _ => return digitsValue word % 256
  | [] => return (← getProcess).status

/-- A fresh image of the process: it keeps its exported bindings, its directory, its
descriptors and the signals that it ignores. -/
def freshImage (name : Bytes) (arguments : List Bytes) (process : Process) : Process :=
  { process with
    name
    arguments
    bindings := process.bindings.filter fun _ value => value.exported
    functions := []
    status := 0
    stopsOnFailure := false
    handlers := []
    faulty := false
    flavour := .plain }

/-- A process that has come to its end, seen by the one that started it. -/
def endStatus (flow : Flow) (status : Nat) : Nat :=
  match flow with
  | .killed signal => 128 + signal
  | _ => status

/-- The options in front of the operands of a shell. -/
def shellOptions : List Bytes → Bytes × List Bytes
  | [] => ([], [])
  | word :: rest =>
      if word == ascii "--" then ([], rest)
      else if (word.head? == some 45 || word.head? == some 43) && 1 < word.length then
        let (letters, operands) := shellOptions rest
        if word.head? == some 45 then (word.tail ++ letters, operands) else (letters, operands)
      else ([], word :: rest)

/-- What a shell says of a script that it cannot read, and its status.  A directory reads as
nothing to a plain one, and gives its name to an extended one. -/
def unopened (flavour : Flavour) (name script : Bytes) (reason : FileError) : Bytes × Nat :=
  let said := fun (name : Bytes) =>
    name ++ ascii ": " ++ script ++ ascii ": " ++ reason.message ++ [newline]
  match flavour, reason with
  | .plain, .isDirectory => ([], 0)
  | .plain, _ => (name ++ ascii ": 0: cannot open " ++ script ++ ascii ": No such file\n", 2)
  | .extended, .missing => (said name, 127)
  | .extended, .isDirectory => (said script, 126)
  | .extended, _ => (said name, 126)

/-- A command that failed ends a script that stops on failures. -/
def checked (guarded : Bool) (flow : Flow) : Running Flow := do
  let process ← getProcess
  if flow = .next ∧ process.stopsOnFailure ∧ !guarded ∧ process.status ≠ 0 then return .exits
  else return flow

/-- Give variables back the values that they had. -/
def restoreVariables (saved : Process) (names : List Bytes) : Running Unit :=
  modifyProcess fun process =>
    let restore := fun (values : KeyMap Value) (name : Bytes) =>
      match saved.bindings.get? name with
      | some value => values.insert name value
      | none => values.erase name
    { process with bindings := names.foldl restore process.bindings }

/-- Export what an entry `NAME=value` sets. -/
def exportEntry (process : Process) (entry : Bytes) : Process :=
  match cut? [equals] entry with
  | some (name, text) => process.exportAs name text
  | none => process

/-- The program that a name stands for in the process. -/
def programFor? (name : Bytes) : Running (Option Bytes) := do
  let state ← get
  if name.elem slash then return some name
  let path := (state.process.textOf? (ascii "PATH")).getD usualPath
  let candidates := (fieldsWhere (· == colon) path).map fun directory => Path.under directory name
  return candidates.find? (state.world.files.isExecutable state.process.directory)

mutual

/-- Expand the parts of a word. -/
def expand : Nat → Word → Running (List Atom)
  | 0, _ => return []
  | _, [] => return []
  | steps + 1, part :: rest => do
      let process ← getProcess
      let front ← match part with
        | .text content true => pure (quotedAtoms content)
        | .text content false => pure (content.map (.byte · false))
        | .parameter name modifier operand quoted =>
            expandParameter steps name modifier operand quoted
        | .output script quoted => do
            let text ← outputOf steps script
            pure (valueAtoms process quoted text)
        | .arithmetic source quoted => do
            let text ← expandQuoted steps source
            match compute? (fun name => (process.textOf? name).getD []) text with
            | some found =>
                match found.assigned with
                | some name => modifyProcess (·.assign name (ofInt found.value))
                | none => pure ()
                pure (valueAtoms process quoted (ofInt found.value))
            | none =>
                complain (ascii "arithmetic expression: expecting primary: \"" ++ text ++
                  ascii "\"")
                modifyProcess fun process => { process with faulty := true }
                pure []
      return front ++ (← expand steps rest)

/-- Expand text as between double quotes. -/
def expandQuoted : Nat → Bytes → Running Bytes
  | 0, _ => return []
  | steps + 1, source => do
      match readQuoted none (source.length + 1) source with
      | some (parts, _) => return atomText (← expand steps parts)
      | none => return source

/-- Expand the operand of a modifier. -/
def expandOperand : Nat → Bool → Bytes → Running (List Atom)
  | 0, _, _ => return []
  | steps + 1, quoted, operand => do
      let parts := if quoted then readQuoted none (operand.length + 1) operand
        else readWord true (operand.length + 1) operand
      match parts with
      | some (parts, _) => expand steps parts
      | none => return []

/-- Expand a parameter with its modifier. -/
def expandParameter : Nat → Bytes → Bytes → Bytes → Bool → Running (List Atom)
  | 0, _, _, _, _ => return []
  | steps + 1, name, modifier, operand, quoted => do
      let process ← getProcess
      let value := parameter? process name
      let plain := if name = ascii "@" ∨ name = ascii "*" then argumentAtoms process name quoted
        else valueAtoms process quoted (value.getD [])
      let absent := if modifier.head? == some colon then (value.getD []).isEmpty else value.isNone
      let kind := if modifier.head? == some colon then modifier.tail else modifier
      if modifier.isEmpty then return plain
      else if modifier = lengthModifier then
        return valueAtoms process quoted (ofNat (value.getD []).length)
      else if kind = ascii "-" then
        if absent then expandOperand steps quoted operand else return plain
      else if kind = ascii "+" then
        if absent then return [] else expandOperand steps quoted operand
      else if kind = ascii "=" then
        if absent then
          let text := atomText (← expandOperand steps quoted operand)
          modifyProcess (·.assign name text)
          return valueAtoms process quoted text
        else return plain
      else if kind = ascii "?" then
        if absent then
          let text := atomText (← expandOperand steps quoted operand)
          complain (name ++ ascii ": " ++ text)
          modifyProcess fun process => { process with faulty := true }
          return []
        else return plain
      else
        let marks := atomMarks (← expandOperand steps false operand)
        let text := value.getD []
        let longest := 1 < modifier.length
        let left := if modifier.head? == some 35 then dropFront longest marks text
          else dropBack longest marks text
        return valueAtoms process quoted left

/-- What a script prints, without the line breaks at its end.  Its status is kept aside:
it is that of the command only when the command runs nothing. -/
def outputOf : Nat → Bytes → Running Bytes
  | 0, _ => return []
  | steps + 1, script => do
      let number ← openChannel (.gathered [])
      let before := (← getProcess).status
      let _ ← isolated do
        connect 1 number
        runSource steps (tokens script)
      modifyProcess fun process =>
        { process with outputStatus := process.status, status := before }
      match ← getChannel number with
      | .gathered content => return (content.reverse.dropWhile (· == newline)).reverse
      | _ => return []

/-- Expand words to fields. -/
def expandFields : Nat → List Word → Running (List Bytes)
  | 0, _ => return []
  | _, [] => return []
  | steps + 1, word :: rest => do
      let atoms ← expand steps (withHome (← getProcess) word)
      let state ← get
      let fields := (collect none atoms).flatMap (matching state.world.files state.process.directory)
      return fields ++ (← expandFields steps rest)

/-- Expand a word to one text. -/
def expandText : Nat → Word → Running Bytes
  | 0, _ => return []
  | steps + 1, word => do
      return atomText (← expand steps (withHome (← getProcess) word))

/-- Apply redirections in order; tells whether all went well. -/
def redirect : Nat → List Redirect → Running Bool
  | 0, _ => return false
  | _, [] => return true
  | steps + 1, first :: rest => do
      let good ← match first with
        | .target descriptor operator word => do
            let target ← expandText steps word
            finishRedirect (descriptor.getD (usualDescriptor operator))
              (← openTarget operator target)
        | .here descriptor content verbatim => do
            let text ← if verbatim then pure content else expandQuoted steps content
            let number ← openChannel (.source text)
            finishRedirect (descriptor.getD 0) (.ok (some number))
      if good then redirect steps rest else return false

/-- Set variables in order. -/
def assignAll : Nat → Bool → List (Bytes × Word) → Running Unit
  | 0, _, _ => return
  | _, _, [] => return
  | steps + 1, exported, (name, word) :: rest => do
      let text ← expandText steps word
      modifyProcess fun process =>
        if exported then process.exportAs name text else process.assign name text
      assignAll steps exported rest

/-- Run a command; when `guarded`, its failure does not end the script. -/
def run : Nat → Bool → Command → Running Flow
  | 0, _, _ => return .late
  | steps + 1, guarded, command =>
      match command with
      | .simple words redirects => do
          checked guarded (← runSimple steps words redirects)
      | .pipe negated stages => do
          let flow ← match stages with
            | [single] => run steps true single
            | stages => runStages steps stages
          if negated then
            match flow with
            | .next =>
                modifyProcess fun process =>
                  { process with status := if process.status = 0 then 1 else 0 }
                return .next
            | other => return other
          else checked guarded flow
      | .both first second => do
          match ← run steps true first with
          | .next => if (← getProcess).status = 0 then run steps guarded second else return .next
          | other => return other
      | .either first second => do
          match ← run steps true first with
          | .next => if (← getProcess).status = 0 then return .next else run steps guarded second
          | other => return other
      | .sequence items => runItems steps guarded items
      | .group body => run steps guarded body
      | .subshell body => do checked guarded (← isolated (run steps guarded body))
      | .branch condition body otherwise => do
          match ← run steps true condition with
          | .next =>
              if (← getProcess).status = 0 then run steps guarded body
              else
                setStatus 0
                run steps guarded otherwise
          | other => return other
      | .loop negated condition body => do
          rounds (fun status => do
            match ← run steps true condition with
            | .next =>
                if ((← getProcess).status == 0) == negated then
                  setStatus status
                  return .inl .next
                else
                  let flow ← run steps guarded body
                  let status := (← getProcess).status
                  return (afterRound flow).elim (.inr status) .inl
            | other => return (afterRound other).elim (.inr status) .inl) loopBound 0
      | .each name words body => do
          let items ← match words with
            | some words => expandFields steps words
            | none => pure (← getProcess).arguments
          setStatus 0
          roundsOver (fun item => do
            modifyProcess (·.assign name item)
            run steps guarded body) items
      | .choose subject arms => do
          let text ← expandText steps subject
          runArms steps guarded text arms
      | .define name body => do
          modifyProcess fun process =>
            { process with functions := (name, body) :: process.functions }
          ends 0
      | .redirected body redirects => do
          let saved := (← getProcess).descriptors
          let flow ← if ← redirect steps redirects then run steps guarded body else pure .next
          modifyProcess fun process => { process with descriptors := saved }
          return flow

/-- Run commands in order. -/
def runItems : Nat → Bool → List (Command × Bool) → Running Flow
  | 0, _, _ => return .late
  | _, _, [] => return .next
  | steps + 1, guarded, (command, background) :: rest => do
      let flow ← if background then runBeside steps command else run steps guarded command
      match flow with
      | .next => runItems steps guarded rest
      | other => return other

/-- Run a command in the background: it takes none of the time of what follows. -/
def runBeside : Nat → Command → Running Flow
  | 0, _ => return .late
  | steps + 1, command => do
      let world ← getWorld
      modifyWorld fun world => { world with deadline := some (world.clock + 4000) }
      let number ← openChannel .null
      let _ ← isolated do
        connect 0 number
        run steps true command
      modifyWorld fun changed => { changed with clock := world.clock, deadline := world.deadline }
      ends 0

/-- Run stages, each reading what the one before it wrote. -/
def runStages : Nat → List Command → Running Flow
  | 0, _ => return .late
  | _, [] => return .next
  | steps + 1, [last] => isolated (run steps true last)
  | steps + 1, first :: rest => do
      let number ← openChannel (.gathered [])
      let flow ← isolated do
        connect 1 number
        run steps true first
      match flow with
      | .next =>
          let content := match ← getChannel number with
            | .gathered content => content
            | _ => []
          let source ← openChannel (.source content)
          let saved := (← getProcess).descriptors
          connect 0 source
          let flow ← runStages steps rest
          modifyProcess fun process => { process with descriptors := saved }
          return flow
      | other => return other

/-- Run the first arm with a pattern that a text fits. -/
def runArms : Nat → Bool → Bytes → List (List Word × Command) → Running Flow
  | 0, _, _, _ => return .late
  | _, _, _, [] => ends 0
  | steps + 1, guarded, text, (patterns, body) :: rest => do
      if ← anyFits steps text patterns then
        setStatus 0
        run steps guarded body
      else runArms steps guarded text rest

def anyFits : Nat → Bytes → List Word → Running Bool
  | 0, _, _ => return false
  | _, _, [] => return false
  | steps + 1, text, pattern :: rest => do
      let marks := atomMarks (← expand steps pattern)
      if fitsPattern marks text then return true else anyFits steps text rest

/-- Run a simple command: its words are expanded, then its redirections and the
variables in front of it. -/
def runSimple : Nat → List Word → List Redirect → Running Flow
  | 0, _, _ => return .late
  | steps + 1, words, redirects => do
      let (assignments, words) := splitAssignments words
      modifyProcess fun process => { process with outputStatus := 0 }
      let fields ← expandFields steps words
      let saved ← getProcess
      if saved.faulty then
        setStatus 2
        return .exits
      match fields with
      | [] =>
          let good ← redirect steps redirects
          modifyProcess fun process => { process with descriptors := saved.descriptors }
          if good then
            assignAll steps false assignments
            modifyProcess fun process => { process with status := process.outputStatus }
          if (← getProcess).faulty then
            setStatus 2
            return .exits
          return .next
      | name :: arguments =>
          if !(← redirect steps redirects) then
            modifyProcess fun process => { process with descriptors := saved.descriptors }
            return .next
          if name == ascii "exec" && arguments.isEmpty then
            assignAll steps false assignments
            ends 0
          else
            assignAll steps true assignments
            let flow ← runNamed steps name arguments
            modifyProcess fun process => { process with descriptors := saved.descriptors }
            restoreVariables saved (assignments.map (·.1))
            return flow

/-- Run a command by its name: a function, a command of the shell, or a program. -/
def runNamed : Nat → Bytes → List Bytes → Running Flow
  | 0, _, _ => return .late
  | steps + 1, name, arguments => do
      let process ← getProcess
      match process.functions.find? fun entry => entry.1 == name with
      | some (_, body) =>
          modifyProcess fun process => { process with arguments }
          let flow ← run steps false body
          modifyProcess fun inner => { inner with arguments := process.arguments }
          match flow with
          | .returns => return .next
          | other => return other
      | none =>
          if shellWords.elem name then runShellWord steps name arguments
          else
            match ← programFor? name with
            | some program => runChild steps program program arguments
            | none =>
                complain (name ++ match process.flavour with
                  | .plain => ascii ": not found"
                  | .extended => ascii ": command not found")
                ends 127

/-- Run a command of the shell. -/
def runShellWord : Nat → Bytes → List Bytes → Running Flow
  | 0, _, _ => return .late
  | steps + 1, name, arguments => do
      let process ← getProcess
      if name = ascii ":" ∨ name = ascii "true" ∨ name = ascii "wait" ∨ name = ascii "umask" then
        ends 0
      else if name = ascii "false" then ends 1
      else if name = ascii "echo" then runEcho process.flavour arguments
      else if name = ascii "printf" then runPrintf arguments
      else if name = ascii "test" then runTest false arguments
      else if name = ascii "[" then runTest true arguments
      else if name = ascii "pwd" then runPwd
      else if name = ascii "cd" then runCd arguments
      else if name = ascii "shift" then runShift arguments
      else if name = ascii "unset" then runUnset arguments
      else if name = ascii "export" ∨ name = ascii "readonly" then runExport arguments
      else if name = ascii "local" then runLocal arguments
      else if name = ascii "set" then runSet arguments
      else if name = ascii "read" then runRead arguments
      else if name = ascii "trap" then runTrap arguments
      else if name = ascii "kill" then runKill steps arguments
      else if name = ascii "exit" then
        setStatus (← statusArgument arguments)
        return .exits
      else if name = ascii "return" then
        setStatus (← statusArgument arguments)
        return .returns
      else if name = ascii "break" then
        return .leaves ((arguments.head?.map digitsValue).getD 1)
      else if name = ascii "continue" then
        return .repeats ((arguments.head?.map digitsValue).getD 1)
      else if name = ascii "eval" then
        setStatus 0
        runSource steps (tokens (join arguments [space]))
      else if name = ascii "." then
        match arguments with
        | [] => ends 2
        | path :: _ =>
            let state ← get
            match state.world.files.read state.process.directory path with
            | .ok script => runSource steps (tokens script)
            | .error _ =>
                complain (ascii ".: cannot open " ++ path ++ ascii ": No such file")
                setStatus 2
                return .exits
      else if name = ascii "command" then
        match arguments with
        | [] => ends 0
        | inner :: rest =>
            if inner == ascii "-v" then
              match rest with
              | [] => ends 127
              | word :: _ =>
                  if shellWords.elem word then ends (← say (word ++ [newline]))
                  else
                    match ← programFor? word with
                    | some program => ends (← say (program ++ [newline]))
                    | none => ends 127
            else runNamed steps inner rest
      else if name = ascii "exec" then
        match arguments with
        | [] => ends 0
        | program :: rest => do
            match ← programFor? program with
            | some program =>
                modifyProcess (freshImage program rest)
                match ← runImage steps program rest with
                | .next => return .exits
                | other => return other
            | none =>
                complain (ascii "exec: " ++ program ++ ascii ": not found")
                setStatus 127
                return .exits
      else ends 0

/-- Send a signal; only a process itself is there to get one. -/
def runKill : Nat → List Bytes → Running Flow
  | 0, _ => return .late
  | steps + 1, arguments => do
      let process ← getProcess
      match killTargets arguments with
      | none => ends 2
      | some (signal, targets) =>
          if targets.any fun target => target != ofNat process.pid then
            complain (ascii "kill: No such process")
            ends 1
          else if targets.isEmpty then ends 2
          else if isHarmless signal || (process.ignored.elem signal && signal != signalKill) then
            ends 0
          else
            match process.handlers.find? fun entry => entry.1 == signal && signal != signalKill with
            | some (_, script) => do
                match ← runSource steps (tokens script) with
                | .next => ends 0
                | other => return other
            | none => return .killed signal

/-- Run the lines of a script. -/
def runSource : Nat → List Token → Running Flow
  | 0, _ => return .late
  | steps + 1, script =>
      match skipBreaks script with
      | [] => return .next
      | left =>
          match readLine left with
          | none => do
              complain (syntaxFault left)
              setStatus 2
              return .exits
          | some (command, rest) => do
              match ← run steps false command with
              | .next => runSource steps rest
              | other => return other

/-- Run a script to its end, and then what it left to be run at its exit. -/
def runScript : Nat → Bytes → Running Flow
  | 0, _ => return .late
  | steps + 1, script => do
      let flow ← runSource steps (tokens script)
      let process ← getProcess
      match flow, process.handlers.find? fun entry => entry.1 == 0 with
      | .late, _ => return .late
      | .killed signal, _ => return .killed signal
      | _, none => return .next
      | _, some (_, handler) => do
          modifyProcess fun process => { process with handlers := [] }
          match ← runSource steps (tokens handler) with
          | .late => return .late
          | .killed signal => return .killed signal
          | .exits => return .next
          | _ => do
              setStatus process.status
              return .next

/-- Start a program as a process of its own and wait for it. -/
def runChild : Nat → Bytes → Bytes → List Bytes → Running Flow
  | 0, _, _, _ => return .late
  | steps + 1, name, program, arguments => do
      let saved ← getProcess
      let pid := (← getWorld).lastPid + 1
      modifyWorld fun world => { world with lastPid := pid }
      modifyProcess fun process => { freshImage name arguments process with pid := pid }
      let flow ← runImage steps program arguments
      let status := endStatus flow (← getProcess).status
      modifyProcess fun _ => { saved with status }
      return if flow = .late then .late else .next

/-- Run a program in the process, whose image is fresh. -/
def runImage : Nat → Bytes → List Bytes → Running Flow
  | 0, _, _ => return .late
  | steps + 1, program, arguments => do
      match ← lookAt program with
      | .ok (.program name) => runProgram steps name arguments
      | .ok (.file content mode) =>
          if mode &&& FileTree.anyExecute = 0 then
            complain (program ++ ascii ": Permission denied")
            ends 126
          else
            match interpreterLine? content with
            | none => runScript steps content
            | some line =>
                let interpreter := line.takeWhile fun b => !isBlank b
                let option := trim (line.drop interpreter.length)
                let arguments := (if option.isEmpty then [] else [option]) ++ program :: arguments
                modifyProcess fun process => { process with name := interpreter, arguments }
                runImage steps interpreter arguments
      | .ok _ =>
          complain (program ++ ascii ": Permission denied")
          ends 126
      | .error _ =>
          complain (program ++ ascii ": not found")
          ends 127

/-- Run a program of the machine. -/
def runProgram : Nat → Bytes → List Bytes → Running Flow
  | 0, _, _ => return .late
  | steps + 1, name, arguments => do
      if name = ascii "sh" ∨ name = ascii "dash" then runShell steps .plain arguments
      else if name = ascii "bash" then runShell steps .extended arguments
      else if name = ascii "cat" then runCat arguments
      else if name = ascii "mv" then runMove arguments
      else if name = ascii "ln" then runLink arguments
      else if name = ascii "rm" then runRemove arguments
      else if name = ascii "echo" then runEcho .extended arguments
      else if name = ascii "printf" then runPrintf arguments
      else if name = ascii "test" then runTest false arguments
      else if name = ascii "[" then runTest true arguments
      else if name = ascii "true" then ends 0
      else if name = ascii "false" then ends 1
      else if name = ascii "pwd" then runPwd
      else if name = ascii "sleep" then runSleep arguments
      else if name = ascii "timeout" then runTimeout steps arguments
      else if name = ascii "env" then
        if arguments.isEmpty then runEnvironment
        else
          modifyProcess fun process =>
            (arguments.takeWhile (·.elem equals)).foldl exportEntry process
          match arguments.dropWhile (·.elem equals) with
          | [] => runEnvironment
          | inner :: rest => runNamed steps inner rest
      else ends 0

/-- Run a command with a deadline of its own. -/
def runTimeout : Nat → List Bytes → Running Flow
  | 0, _ => return .late
  | steps + 1, arguments => do
      match arguments.dropWhile fun word => word.head? == some 45 with
      | limit :: inner :: rest =>
          match duration? limit with
          | none => ends 125
          | some limit =>
              let world ← getWorld
              let own := world.clock + limit
              let sooner := world.deadline.all (own < ·)
              let limited := limit != 0 && sooner
              if limited then modifyWorld fun world => { world with deadline := some own }
              let flow ← match ← programFor? inner with
                | some program => runChild steps program program rest
                | none => ends 127
              modifyWorld fun changed => { changed with deadline := world.deadline }
              if flow = .late then
                if limited then ends 124 else return .late
              else return flow
      | _ => ends 125

/-- Run the shell by its arguments: a script that is given, one in a file, or one that
it reads. -/
def runShell : Nat → Flavour → List Bytes → Running Flow
  | 0, _, _ => return .late
  | steps + 1, flavour, arguments => do
      let (letters, operands) := shellOptions arguments
      modifyProcess fun process =>
        ({ process with
          flavour
          arguments := operands.tail
          stopsOnFailure := letters.elem 101 }).exportAs (ascii "PWD")
          (if process.directory.isEmpty then [slash] else process.directory)
      match operands with
      | [] =>
          if letters.elem 99 then ends 2
          else
            let script ← peek 0
            leaveUnread 0 []
            runScript steps script
      | first :: rest =>
          if letters.elem 99 then
            modifyProcess fun process => { process with
              name := rest.headD process.name
              arguments := rest.tail }
            runScript steps first
          else
            let state ← get
            match state.world.files.read state.process.directory first with
            | .ok script =>
                modifyProcess fun process => { process with name := first }
                runScript steps script
            | .error reason => do
                let (text, status) := unopened flavour (← getProcess).name first reason
                let _ ← write 2 text
                ends status

end

end Assay.Outer.Machine
