/-
# Assay.Json.Plain -- a plain library

A library that has every value: it keeps numbers as they were written and members in the
order in which they stand.  Texts may have a mark in front of them, and only what is UTF-8
is read or written.
-/
import Assay.Json.Library
import Assay.Json.Printer
import Assay.Json.Reader

namespace Assay.Json

set_option autoImplicit false

open Bytes

/-- Why a value cannot be written. -/
def notText : Bytes :=
  ascii "[json.exception.type_error.316] invalid UTF-8 byte"

/-- A text of a value, if its strings are UTF-8. -/
def ifText (value : Json) (text : Bytes) : Except Bytes Bytes :=
  if value.isText then .ok text else .error notText

/-- The plain library. -/
def plain : Library where
  parse text := (read? (dropMark text)).filter isText
  parseFront text := (readFront? (dropMark text)).filter isText
  dump value := ifText value value.print
  dumpIndented value := ifText value value.pretty

end Assay.Json
