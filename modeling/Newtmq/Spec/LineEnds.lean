/-
Module: Newtmq.Spec.LineEnds
Purpose: A frame whose lines end with CR and LF, what it means that `recv_data` publishes the same for
  it as for the frame whose lines end with LF, and the frames for which it does.
Trusted boundary: human-reviewed spec
Main exports: WireFrame.encodeCrlf, PublishesFirst, SameAtCrlf, leftOfHeader, CrlfHarmless
-/
import Newtmq.Spec.Encoding
import Newtmq.Core.Stomp

namespace Newtmq

/-- The lines of a header, each with CR and LF. -/
def encodeLinesCrlf (lines : List (List UInt8)) : List UInt8 :=
  WireFrame.encodeLines (lines.map (· ++ [CR]))

/-- The bytes of a frame: command line, header lines, blank line, body, NUL. -/
def WireFrame.encodeCrlf (sent : WireFrame) : List UInt8 :=
  (sent.command ++ [CR]) ++ LF :: (encodeLinesCrlf sent.headers ++ CR :: LF :: (sent.body ++ [0]))

/-- The first frame that `recv_data` publishes from the chunk. -/
def PublishesFirst (env : RecvEnv) (sock : Int) (chunk : List UInt8) (st : RecvState)
    (frame : Frame) : Prop :=
  ∃ rest there, Loop.Visits (recvPass env sock) (chunk, st) (rest, there) ∧
    there.bucket = st.bucket ++ [frame]

/-- The two encodings of a frame publish frames with the same command and the same body. -/
def SameAtCrlf (env : RecvEnv) (sock : Int) (sent : WireFrame) (st : RecvState) : Prop :=
  ∃ plain crlf, PublishesFirst env sock sent.encode st plain ∧
    PublishesFirst env sock sent.encodeCrlf st crlf ∧ plain.name = crlf.name ∧
    (entryLines plain.hData).flatten = (entryLines crlf.hData).flatten

/-- What is left of the header when a byte has been taken for the blank line: the LF behind the CR of
the blank line, or more when a header line has `LD_MAX` bytes. Then its CR is skipped and its LF taken
for the blank line, once the length is `known`. -/
def leftOfHeader : Bool → List (List UInt8) → List UInt8
  | _, [] => [LF]
  | known, line :: lines =>
      if (known || isLengthHeader line) ∧ line.length = LD_MAX then encodeLinesCrlf lines ++ [CR, LF]
      else leftOfHeader (known || isLengthHeader line) lines

/-- What is left of the header is read as the start of the body. That shows, unless there is no body, or
the pieces that are read end with the last byte that was announced and hold the body all the same. -/
def CrlfHarmless (sent : WireFrame) : Prop :=
  sent.body = [] ∨ (LD_MAX ∣ sent.body.length ∧
    (leftOfHeader false sent.headers ++ sent.body).take sent.body.length = sent.body)

end Newtmq
