/-
# Assay.Exec.Script -- executing script files

A script is run by the interpreter that is asked for, by the one that its first
line names, or as a program of its own.  It is made executable first.
-/
import Assay.Exec.Executor

namespace Assay.Exec

set_option autoImplicit false

open Bytes Shell

/-- Why a script is not executed. -/
inductive ScriptError where
  | missing (path : Bytes)
  /-- The line that names the interpreter cannot be read. -/
  | interpreter (cause : WordError)
  deriving DecidableEq, Repr

def ScriptError.message : ScriptError → Bytes
  | .missing path => untilZero (ascii "Script not found: " ++ path)
  | .interpreter cause => cause.message

/-- The interpreter that the first line of a script names. -/
def namedInterpreter? (content : Bytes) : Option Bytes :=
  let line := trim (firstLine content)
  if startsWith line (ascii "#!") then some (trim (line.drop 2)) else none

/-- Let the owner of a script run it. -/
def allowExecution (path : Bytes) : Act Unit := do
  let host ← get
  match host.files.mode? host.directory path with
  | none => return
  | some mode =>
      if mode &&& FileTree.ownerExecute = 0 then
        Log.warn (ascii "[exec] Script " ++ path ++ ascii " is not executable. Adding permission.")
        modify fun host =>
          match host.files.setMode host.directory path (· ||| FileTree.ownerExecute) with
          | .ok files => { host with files := files }
          | .error _ => host

/-- The interpreter of a script: the one asked for, else the one it names, else none. -/
def chooseInterpreter (path wanted : Bytes) : Act Bytes := do
  if !wanted.isEmpty then return wanted
  match namedInterpreter? ((← get).text path) with
  | none => return []
  | some interpreter =>
      Log.info (ascii "[exec] Detected interpreter: " ++ interpreter)
      return interpreter

/-- The words that run a script. -/
def scriptWords (interpreter path : Bytes) (arguments : List Bytes) :
    Except WordError (List Bytes) := do
  let front ← if interpreter.isEmpty then .ok [] else splitWords interpreter
  .ok (front ++ path :: arguments)

def Executor.executeScript (programs : Programs) (executor : Executor) (path : Bytes)
    (arguments : List Bytes) (interpreter : Bytes) (timeout : Option Int) :
    Act (Except ScriptError Result) := do
  if !(← get).pathExists path then return .error (.missing path)
  allowExecution path
  let interpreter ← chooseInterpreter path interpreter
  match scriptWords interpreter path arguments with
  | .error cause => return .error (.interpreter cause)
  | .ok words => return .ok (← executor.execute programs { words, timeout })

end Assay.Exec
