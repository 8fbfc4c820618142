/-
Module: Newtmq.Spec.RejectedLines
Purpose: The lines that the parser rejects, and what it means that it goes on after them as if they had
  not been there.
Trusted boundary: human-reviewed spec
Main exports: RejectedLine, RejectedLine.encodeAll, bornFrame, Resynchronizes, LeavesBorn
-/
import Newtmq.Core.Stomp

namespace Newtmq

/-- A line of at most `LD_MAX` bytes that starts with none of the commands, with the LF or the NUL that
ends it. -/
structure RejectedLine where
  text : List UInt8
  stop : UInt8
  short : text.length ≤ LD_MAX
  clean : ∀ c ∈ text, c ≠ 0 ∧ c ≠ LF ∧ c ≠ CR
  unknown : ∀ w ∈ finfoArr, ¬ w <+: text
  ends : stop = LF ∨ stop = 0

namespace RejectedLine

def encode (line : RejectedLine) : List UInt8 := line.text ++ [line.stop]

def encodeAll (lines : List RejectedLine) : List UInt8 := lines.flatMap encode

end RejectedLine

/-- The frame of a connection in its initial state, as `prepare_frame` allocates it. -/
def bornFrame (sock : Int) (cinfo : StompConninfo) : Frame :=
  { allocFrame with sock := sock, cinfo := some cinfo.id }

/-- Whatever the bytes `rest` alone lead to, when they follow the lines the same frames are published. -/
def Resynchronizes (env : RecvEnv) (sock : Int) (lines : List RejectedLine) (rest : List UInt8)
    (st : RecvState) : Prop :=
  ∀ result, recvData env sock rest st = some result →
    ∃ result', recvData env sock (RejectedLine.encodeAll lines ++ rest) st = some result' ∧
      result'.bucket = result.bucket

/-- When one of the lines has been read, nothing has been published, and the current frame is the
initial one; up to the first line that is not empty there is none. -/
def LeavesBorn (env : RecvEnv) (sock : Int) (lines : List RejectedLine) (rest : List UInt8)
    (st : RecvState) : Prop :=
  ∀ before line after, lines = before ++ line :: after →
    ∃ later, Loop.Visits (recvPass env sock) (RejectedLine.encodeAll lines ++ rest, st)
        (RejectedLine.encodeAll after ++ rest, later) ∧
      later.bucket = st.bucket ∧
      later.cinfo.frame =
        if ∀ l ∈ before ++ [line], l.text = [] then none else some (bornFrame sock st.cinfo)

end Newtmq
