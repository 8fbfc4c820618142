/-
Module: Newtmq.Spec.Logger
Purpose: What the log is to be: whole lines, one for each call whose level is high enough, in the order of
  the calls of each thread.
Trusted boundary: human-reviewed spec
Main exports: logLine, LinesOf, WholeLines
-/
import Newtmq.Core.Logger

namespace Newtmq

/-- The line of a call. -/
def logLine (call : LogCall) : List UInt8 :=
  showLoglevel call.level ++ call.timebuf ++ cstring " > " ++ call.text ++ [LF]

/-- The calls of a thread that are to be printed, in order. -/
def Logger.printed (currLevel : LogLevel) (s : Logger) (thread : Nat) : List LogCall :=
  (LockedLog.ofThread thread s.calls).filter fun call => currLevel.number ≤ call.level.number

/-- The output is made of whole lines, and of the beginning of the line of the thread that holds the mutex.
The lines of each thread are those of its calls, in order, and at most the last call has no line yet. -/
def WholeLines (currLevel : LogLevel) (s : Logger) : Prop :=
  ∃ (lines : List (Nat × LogCall)) (cut : List UInt8),
    s.output.log.flatten = (lines.flatMap fun entry => logLine entry.2) ++ cut ∧
    (∀ thread, ∃ pending, s.printed currLevel thread = LockedLog.ofThread thread lines ++ pending ∧
      pending.length ≤ 1 ∧ (s.output.holder = some thread → ∃ call, pending = [call] ∧ cut <+: logLine call)) ∧
    (s.output.holder = none → cut = [])

end Newtmq
