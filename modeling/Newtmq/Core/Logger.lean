/-
Module: Newtmq.Core.Logger
Purpose: `logger.c`. A call of `debug`, `info`, `warn` or `err` prints a line in four parts while it holds
  `log_mutex`, or returns at once when its level is too low.
Trusted boundary: human-reviewed spec
Main exports: LogLevel, DEFAULT_LOG_LEVEL, setLogger, showLoglevel, LogCall, doLogger, Logger, loggerStep
-/
import Newtmq.Library.LockedLog
import Newtmq.Core.Common

namespace Newtmq

/-- `LOG_DEBUG` to `LOG_ERROR`. -/
inductive LogLevel where
  | debug
  | info
  | warn
  | error
deriving DecidableEq, Repr

/-- The number of a level. -/
def LogLevel.number : LogLevel → Nat
  | .debug => 1
  | .info => 2
  | .warn => 3
  | .error => 4

def DEFAULT_LOG_LEVEL : LogLevel := .info

/-- `set_logger`: the return code and `curr_level`. The level is absent when the pointer is `NULL`. -/
def setLogger (level : Option (List UInt8)) (currLevel : LogLevel) : Ret × LogLevel :=
  match level with
  | none => (.error, currLevel)
  | some level =>
      if cstr level = cstring "DEBUG" then (.success, .debug)
      else if cstr level = cstring "INFO" then (.success, .info)
      else if cstr level = cstring "WARN" then (.success, .warn)
      else if cstr level = cstring "ERROR" then (.success, .error)
      else (.error, currLevel)

/-- `show_loglevel`. -/
def showLoglevel : LogLevel → List UInt8
  | .debug => cstring "[DEBUG] "
  | .info => cstring "[ INFO] "
  | .warn => cstring "[ WARN] "
  | .error => cstring "[ERROR] "

/-- A call of one of the four functions. `timebuf` is what `strftime` makes of the time of the call, and
`text` what `vprintf` makes of the format and the arguments. -/
structure LogCall where
  level : LogLevel
  timebuf : List UInt8
  text : List UInt8
deriving DecidableEq, Repr

/-- The calls of `printf` in `do_logger`. -/
def doLogger (call : LogCall) : List (List UInt8) :=
  [showLoglevel call.level, call.timebuf ++ cstring " > ", call.text, [LF]]

/-- The threads of the server and what they print, with a record of the calls of each thread. -/
structure Logger where
  calls : List (Nat × LogCall)
  output : LockedLog.State Nat LogCall (List UInt8)

def Logger.start : Logger := ⟨[], .start⟩

/-- A thread calls one of the functions, or goes on in `do_logger`. -/
inductive LogAction where
  | call (thread : Nat) (call : LogCall)
  | lock (thread : Nat)
  | printf (thread : Nat)
  | unlock (thread : Nat)

/-- One step. A call below `curr_level` does nothing; a thread calls again when its call has returned. -/
def loggerStep (currLevel : LogLevel) (s : Logger) : LogAction → Option Logger
  | .call thread call =>
      if currLevel.number ≤ call.level.number then
        (LockedLog.step doLogger s.output (.take thread call)).map fun output =>
          ⟨s.calls ++ [(thread, call)], output⟩
      else if s.output.running thread = none then some { s with calls := s.calls ++ [(thread, call)] }
      else none
  | .lock thread => (LockedLog.step doLogger s.output (.lock thread)).map fun output => ⟨s.calls, output⟩
  | .printf thread => (LockedLog.step doLogger s.output (.put thread)).map fun output => ⟨s.calls, output⟩
  | .unlock thread =>
      (LockedLog.step doLogger s.output (.unlock thread)).map fun output => ⟨s.calls, output⟩

end Newtmq
