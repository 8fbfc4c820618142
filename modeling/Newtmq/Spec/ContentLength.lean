/-
Module: Newtmq.Spec.ContentLength
Purpose: The texts that give a length, and what it means that a length header is read faithfully or that
  its frame is refused.
Trusted boundary: human-reviewed spec
Main exports: PaddedDecimal, lengthLine, Refused, FaithfulOrRefused
-/
import Newtmq.Spec.Encoding
import Newtmq.Spec.FrameSize

namespace Newtmq

/-- A decimal numeral of `n`, with spaces before it and after it. -/
def PaddedDecimal (text : List UInt8) (n : Nat) : Prop :=
  ∃ before digits after, text = List.replicate before 32 ++ (digits ++ List.replicate after 32) ∧
    Decimal digits n

/-- The header line `content-length:` with a text, in a memory where `stop` ends it. -/
def lengthLine (text : List UInt8) (stop : UInt8) (rest : List UInt8) : HandedLine where
  memory := cstring "content-length:" ++ (text ++ stop :: rest)
  len := 15 + text.length
  inside := by
    have fifteen : (cstring "content-length:").length = 15 := by decide
    simp only [List.length_append, List.length_cons, fifteen]
    omega

/-- `frame_update` answers the line with an error, or no lines that follow make it complete the frame.
Only the line after a complete frame is taken for a command line. -/
def Refused (finish : Frame → Frame) (updated : Int × Frame) : Prop :=
  updated.1 < 0 ∨ ∀ lines, completes finish updated.2 lines = none

/-- The text is a length that fits an `int` and the frame has this length, or the frame is refused. -/
def FaithfulOrRefused (finish : Frame → Frame) (frame : Frame) (line : HandedLine)
    (text : List UInt8) : Prop :=
  let updated := frameUpdate finish line.memory line.len frame
  (∃ n : Nat, PaddedDecimal text n ∧ n ≤ 2147483647 ∧ updated.2.contentlen = n) ∨ Refused finish updated

end Newtmq
