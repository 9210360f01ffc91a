/-
# Assay.Outer.Machine.Command -- the commands of a script

A script is run line by line: `readLine` takes the commands of one line, which may
go on over several lines of text, off the front of its tokens.  Each reader answers
what it read and the tokens after it, or none for a malformed script.
-/
import Assay.Outer.Machine.Token

namespace Assay.Outer.Machine

set_option autoImplicit false

open Bytes

/-- A redirection of a descriptor. -/
inductive Redirect where
  /-- By an operator such as `>`, to what a word expands to. -/
  | target (descriptor : Option Nat) (operator : Bytes) (word : Word)
  /-- From text in the script. -/
  | here (descriptor : Option Nat) (content : Bytes) (verbatim : Bool)
  deriving Repr

/-- A command. -/
inductive Command where
  | simple (words : List Word) (redirects : List Redirect)
  | pipe (negated : Bool) (stages : List Command)
  | both (first second : Command)
  | either (first second : Command)
  /-- Commands in order, each in the background or not. -/
  | sequence (items : List (Command × Bool))
  | group (body : Command)
  | subshell (body : Command)
  | branch (condition body otherwise : Command)
  | loop (negated : Bool) (condition body : Command)
  /-- For each of the words, or of the positional parameters. -/
  | each (name : Bytes) (words : Option (List Word)) (body : Command)
  | choose (subject : Word) (arms : List (List Word × Command))
  | define (name : Bytes) (body : Command)
  | redirected (body : Command) (redirects : List Redirect)
  deriving Repr

/-- The command that does nothing. -/
def Command.nothing : Command := .sequence []

def isBreak : Token → Bool
  | .operator text => text == [newline]
  | _ => false

def skipBreaks (tokens : List Token) : List Token :=
  tokens.dropWhile isBreak

def isOperator (text : Bytes) : Token → Bool
  | .operator other => other == text
  | _ => false

def isKeyword (text : Bytes) : Token → Bool
  | .word parts => parts.bare? == some text
  | _ => false

/-- The keywords that end a row of commands. -/
def closingKeywords : List Bytes :=
  [ascii "then", ascii "elif", ascii "else", ascii "fi", ascii "do", ascii "done", ascii "esac",
    ascii "\x7d"]

def closes (token : Token) : Bool :=
  closingKeywords.any (isKeyword · token) || isOperator (ascii ")") token ||
    isOperator (ascii ";;") token

/-- Take a keyword off the front. -/
def expectKeyword (text : Bytes) : List Token → Option (List Token)
  | token :: rest => if isKeyword text token then some rest else none
  | [] => none

def expectOperator (text : Bytes) : List Token → Option (List Token)
  | token :: rest => if isOperator text token then some rest else none
  | [] => none

/-- Read the words up to one that is none. -/
def readWords : List Token → List Word × List Token
  | .word parts :: rest =>
      let (words, after) := readWords rest
      (parts :: words, after)
  | tokens => ([], tokens)

/-- Read the patterns of an arm, up to its closing bracket. -/
def readPatterns : List Token → Option (List Word × List Token)
  | .word parts :: rest =>
      match rest with
      | .operator text :: after =>
          if text = ascii ")" then some ([parts], after)
          else if text = ascii "|" then
            (readPatterns after).map fun found => (parts :: found.1, found.2)
          else none
      | _ => none
  | _ => none

/-- Read the redirections at the front. -/
def readRedirects : List Token → Option (List Redirect × List Token)
  | .redirect descriptor operator :: .word parts :: rest =>
      (readRedirects rest).map fun found => (.target descriptor operator parts :: found.1, found.2)
  | .redirect .. :: _ => none
  | .here descriptor content verbatim :: rest =>
      (readRedirects rest).map fun found => (.here descriptor content verbatim :: found.1, found.2)
  | tokens => some ([], tokens)

/-- Read the words and redirections of a simple command. -/
def readSimple : List Token → Option ((List Word × List Redirect) × List Token)
  | .word parts :: rest =>
      (readSimple rest).map fun found => ((parts :: found.1.1, found.1.2), found.2)
  | .redirect descriptor operator :: .word parts :: rest =>
      (readSimple rest).map fun found =>
        ((found.1.1, .target descriptor operator parts :: found.1.2), found.2)
  | .redirect .. :: _ => none
  | .here descriptor content verbatim :: rest =>
      (readSimple rest).map fun found =>
        ((found.1.1, .here descriptor content verbatim :: found.1.2), found.2)
  | tokens => some (([], []), tokens)

def isName (text : Bytes) : Bool :=
  text.head?.any isNameStart && text.all isNameByte

mutual

/-- Read commands up to one that closes them, or to the end of the line if wanted. -/
def readItems (oneLine : Bool) : Nat → List Token → Option ((List (Command × Bool)) × List Token)
  | 0, _ => none
  | steps + 1, tokens =>
      let tokens := if oneLine then tokens else skipBreaks tokens
      match tokens with
      | [] => some ([], [])
      | token :: rest =>
          if closes token then some ([], token :: rest)
          else if isBreak token then some ([], rest)
          else
            match readChain steps (token :: rest) with
            | none => none
            | some (command, after) =>
                match after with
                | [] => some ([(command, false)], [])
                | mark :: more =>
                    if isOperator (ascii ";") mark || isOperator (ascii "&") mark then
                      (readItems oneLine steps more).map fun found =>
                        ((command, isOperator (ascii "&") mark) :: found.1, found.2)
                    else if isBreak mark then
                      if oneLine then some ([(command, false)], more)
                      else
                        (readItems oneLine steps more).map fun found =>
                          ((command, false) :: found.1, found.2)
                    else if closes mark then some ([(command, false)], after)
                    else none

/-- Read commands joined by `&&` and `||`. -/
def readChain : Nat → List Token → Option (Command × List Token)
  | 0, _ => none
  | steps + 1, tokens =>
      match readPipe steps tokens with
      | none => none
      | some (command, after) => readChainFrom steps command after

/-- Read what is joined to a command. -/
def readChainFrom : Nat → Command → List Token → Option (Command × List Token)
  | 0, _, _ => none
  | steps + 1, command, tokens =>
      match tokens with
      | [] => some (command, [])
      | mark :: rest =>
          if isOperator (ascii "&&") mark then
            match readPipe steps (skipBreaks rest) with
            | none => none
            | some (next, after) => readChainFrom steps (.both command next) after
          else if isOperator (ascii "||") mark then
            match readPipe steps (skipBreaks rest) with
            | none => none
            | some (next, after) => readChainFrom steps (.either command next) after
          else some (command, tokens)

/-- Read commands joined by `|`, the outcome turned round by a `!` in front. -/
def readPipe : Nat → List Token → Option (Command × List Token)
  | 0, _ => none
  | steps + 1, tokens =>
      let negated := tokens.head?.any (isKeyword (ascii "!"))
      match readStages steps (if negated then tokens.tail else tokens) with
      | none => none
      | some ([single], after) => some (if negated then .pipe true [single] else single, after)
      | some (stages, after) => some (.pipe negated stages, after)

def readStages : Nat → List Token → Option (List Command × List Token)
  | 0, _ => none
  | steps + 1, tokens =>
      match readCommand steps tokens with
      | none => none
      | some (command, after) =>
          match after with
          | [] => some ([command], [])
          | mark :: rest =>
              if isOperator (ascii "|") mark then
                (readStages steps (skipBreaks rest)).map fun found => (command :: found.1, found.2)
              else some ([command], after)

/-- Read one command with its redirections. -/
def readCommand : Nat → List Token → Option (Command × List Token)
  | 0, _ => none
  | steps + 1, tokens =>
      match readCompound steps tokens with
      | none => none
      | some (some command, after) =>
          (readRedirects after).map fun found =>
            (if found.1.isEmpty then command else .redirected command found.1, found.2)
      | some (none, _) =>
          match tokens with
          | .word parts :: .operator opening :: .operator closing :: rest =>
              if opening = ascii "(" ∧ closing = ascii ")" then
                match parts.bare? with
                | none => none
                | some name =>
                    if isName name then
                      (readCommand steps (skipBreaks rest)).map fun found =>
                        (.define name found.1, found.2)
                    else none
              else readPlain tokens
          | _ => readPlain tokens

/-- Read a command that starts with a keyword or a bracket, if there is one. -/
def readCompound : Nat → List Token → Option (Option Command × List Token)
  | 0, _ => none
  | steps + 1, tokens =>
      match tokens with
      | [] => some (none, [])
      | token :: rest =>
          if isKeyword (ascii "\x7b") token then do
            let (items, after) ← readItems false steps rest
            let after ← expectKeyword (ascii "\x7d") after
            some (some (.group (.sequence items)), after)
          else if isOperator (ascii "(") token then do
            let (items, after) ← readItems false steps rest
            let after ← expectOperator (ascii ")") after
            some (some (.subshell (.sequence items)), after)
          else if isKeyword (ascii "if") token then do
            let (command, after) ← readBranch steps rest
            some (some command, after)
          else if isKeyword (ascii "while") token || isKeyword (ascii "until") token then do
            let (condition, after) ← readItems false steps rest
            let after ← expectKeyword (ascii "do") after
            let (body, after) ← readItems false steps after
            let after ← expectKeyword (ascii "done") after
            some (some (.loop (isKeyword (ascii "until") token) (.sequence condition)
              (.sequence body)), after)
          else if isKeyword (ascii "for") token then
            match rest with
            | .word parts :: after => do
                let name ← parts.bare?
                let after := skipBreaks after
                let (words, after) :=
                  match expectKeyword (ascii "in") after with
                  | some after =>
                      let (words, after) := readWords after
                      (some words, after)
                  | none => (none, after)
                let after := (expectOperator (ascii ";") after).getD after
                let after ← expectKeyword (ascii "do") (skipBreaks after)
                let (body, after) ← readItems false steps after
                let after ← expectKeyword (ascii "done") after
                some (some (.each name words (.sequence body)), after)
            | _ => none
          else if isKeyword (ascii "case") token then
            match rest with
            | .word subject :: after => do
                let after ← expectKeyword (ascii "in") (skipBreaks after)
                let (arms, after) ← readArms steps after
                some (some (.choose subject arms), after)
            | _ => none
          else some (none, tokens)

/-- Read a branch after its `if` or `elif`, up to its `fi`. -/
def readBranch : Nat → List Token → Option (Command × List Token)
  | 0, _ => none
  | steps + 1, tokens => do
      let (condition, after) ← readItems false steps tokens
      let after ← expectKeyword (ascii "then") after
      let (body, after) ← readItems false steps after
      match after with
      | [] => none
      | mark :: rest =>
          if isKeyword (ascii "fi") mark then
            some (.branch (.sequence condition) (.sequence body) .nothing, rest)
          else if isKeyword (ascii "elif") mark then do
            let (otherwise, after) ← readBranch steps rest
            some (.branch (.sequence condition) (.sequence body) otherwise, after)
          else if isKeyword (ascii "else") mark then do
            let (otherwise, after) ← readItems false steps rest
            let after ← expectKeyword (ascii "fi") after
            some (.branch (.sequence condition) (.sequence body) (.sequence otherwise), after)
          else none

/-- Read the arms of a choice, up to its `esac`. -/
def readArms : Nat → List Token → Option ((List (List Word × Command)) × List Token)
  | 0, _ => none
  | steps + 1, tokens =>
      let tokens := skipBreaks tokens
      match expectKeyword (ascii "esac") tokens with
      | some after => some ([], after)
      | none => do
          let tokens := (expectOperator (ascii "(") tokens).getD tokens
          let (patterns, after) ← readPatterns tokens
          let (body, after) ← readItems false steps after
          let after := skipBreaks after
          match expectOperator (ascii ";;") after with
          | some after => do
              let (arms, after) ← readArms steps after
              some ((patterns, .sequence body) :: arms, after)
          | none => do
              let after ← expectKeyword (ascii "esac") after
              some ([(patterns, .sequence body)], after)

/-- Read a simple command, which must not be empty. -/
def readPlain (tokens : List Token) : Option (Command × List Token) :=
  match readSimple tokens with
  | none => none
  | some (([], []), _) => none
  | some ((words, redirects), after) => some (.simple words redirects, after)

end

/-- Read the commands of the next line. -/
def readLine (tokens : List Token) : Option (Command × List Token) := do
  let tokens := skipBreaks tokens
  let (items, after) ← readItems true (4 * tokens.length + 8) tokens
  match after, items with
  | token :: _, [] => if closes token then none else some (.sequence items, after)
  | token :: rest, items => if closes token then none else some (.sequence items, token :: rest)
  | [], items => some (.sequence items, [])

end Assay.Outer.Machine
