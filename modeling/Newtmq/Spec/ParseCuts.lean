/-
Module: Newtmq.Spec.ParseCuts
Purpose: What it means that `parse_frame` goes on with the second part of a frame where the first part
  ended, and the cuts at which it does.
Trusted boundary: human-reviewed spec
Main exports: Resumes, ResumableCut
-/
import Newtmq.Spec.Encoding
import Newtmq.Core.ParseFrame

namespace Newtmq

/-- The call with the first part does not complete the frame, the call with the second part does, and
the frame is the one that a single call with both parts gives. Each part is all the memory of its
call. -/
def Resumes (rand : Nat → Nat) (rands : Nat) (first second : List UInt8) : Prop :=
  ∃ begun ended whole,
    parseFrame rand first first.length allocFrame none rands = some (.error, begun) ∧
    parseFrame rand second second.length begun.frame begun.prevBuffer begun.rands =
      some (.success, ended) ∧
    parseFrame rand (first ++ second) (first ++ second).length allocFrame none rands =
      some (.success, whole) ∧
    ended.frame.name = whole.frame.name ∧
    entryLines ended.frame.hAttrs = entryLines whole.frame.hAttrs ∧
    (entryLines ended.frame.hData).flatten = (entryLines whole.frame.hData).flatten

/-- The first parts of a frame after which `parse_frame` can go on: those that end with a line or with
its LF, when no length has been read before that LF. Once it has, only the LF of the last header line
may be missing, and only where it makes no difference that it is read as a byte of the body. -/
inductive ResumableCut (sent : WireFrame) : List UInt8 → Prop where
  | afterCommand : ResumableCut sent sent.command
  | afterLines (done todo : List (List UInt8)) (split : sent.headers = done ++ todo) :
      ResumableCut sent (sent.command ++ LF :: WireFrame.encodeLines done)
  | beforeLf (done : List (List UInt8)) (line : List UInt8) (todo : List (List UInt8))
      (split : sent.headers = done ++ line :: todo) (silent : isLengthHeader line = false)
      (unknown : done.countP isLengthHeader = 0) :
      ResumableCut sent (sent.command ++ LF :: (WireFrame.encodeLines done ++ line))
  | beforeLastLf (done : List (List UInt8)) (line : List UInt8) (split : sent.headers = done ++ [line])
      (known : 0 < done.countP isLengthHeader) (pieces : LD_MAX ∣ sent.body.length)
      (newlines : ∀ c ∈ sent.body, c = LF) :
      ResumableCut sent (sent.command ++ LF :: (WireFrame.encodeLines done ++ line))
  | afterBlank :
      ResumableCut sent (sent.command ++ LF :: (WireFrame.encodeLines sent.headers ++ [LF]))

end Newtmq
