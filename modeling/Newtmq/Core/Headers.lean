/-
Module: Newtmq.Core.Headers
Purpose: `iterate_header` of `stomp_management_worker.c`, which looks for the header names of a table
  in the stored header lines and calls their handlers, and the two kinds of handler that only record
  the value.
Trusted boundary: human-reviewed spec
Main exports: HeaderHandler, applyHandlers, iterateHeader, storeContext, storeNonempty
-/
import Newtmq.Core.Frame

namespace Newtmq

/-- A header handler is given the value (the C string `context`), the data it records values in, and
the stored line, which it may change. -/
abbrev HeaderHandler (δ : Type) := List UInt8 → δ → Linedata → Ret × δ × Linedata

variable {δ : Type}

/-- The inner loop of `iterate_header`: try the names of the table on one line. -/
def applyHandlers : List (List UInt8 × HeaderHandler δ) → Linedata → δ → Ret × Linedata × δ
  | [], line, data => (.success, line, data)
  | (name, handler) :: handlers, line, data =>
      if name.isPrefixOf line.memory then
        match handler (cstr (line.memory.drop name.length)) data line with
        | (.error, data, line) => (.error, line, data)
        | (.success, data, line) => applyHandlers handlers line data
      else applyHandlers handlers line data

/-- `iterate_header`: the return code, the lines as the handlers left them, and the data. -/
def iterateHeader (handlers : List (List UInt8 × HeaderHandler δ)) :
    List Linedata → δ → Ret × List Linedata × δ
  | [], data => (.success, [], data)
  | line :: lines, data =>
      match applyHandlers handlers line data with
      | (.error, line, data) => (.error, line :: lines, data)
      | (.success, line, data) =>
          let (ret, lines, data) := iterateHeader handlers lines data
          (ret, line :: lines, data)

/-- A handler that records the value. -/
def storeContext (set : δ → List UInt8 → δ) : HeaderHandler δ :=
  fun context data line => (.success, set data context, line)

/-- A handler that records the value and fails when it is empty. -/
def storeNonempty (set : δ → List UInt8 → δ) : HeaderHandler δ :=
  fun context data line =>
    if 0 < context.length then (.success, set data context, line) else (.error, data, line)

end Newtmq
