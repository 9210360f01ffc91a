/-
# Assay.Log.Level -- how grave a log record is
-/
import Assay.Bytes.Basic

namespace Assay.Log

set_option autoImplicit false

open Bytes

/-- How grave a record is, from the least to the most. -/
inductive Level where
  | debug
  | info
  | warn
  | error
  deriving DecidableEq, Repr

namespace Level

def name : Level → Bytes
  | debug => ascii "DEBUG"
  | info => ascii "INFO"
  | warn => ascii "WARN"
  | error => ascii "ERROR"

def rank : Level → Nat
  | debug => 0
  | info => 1
  | warn => 2
  | error => 3

/-- Read a level's name in any case of letters; a warning has two names. -/
def parse? (word : Bytes) : Option Level :=
  let upper := toUpper word
  if upper = ascii "DEBUG" then some debug
  else if upper = ascii "INFO" then some info
  else if upper = ascii "WARN" ∨ upper = ascii "WARNING" then some warn
  else if upper = ascii "ERROR" then some error
  else none

end Level

end Assay.Log
