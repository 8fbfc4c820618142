/-
Module: Newtmq.Spec.LongHeaders
Purpose: Frames with header lines of any length, what it means that their header lines survive, and the
  frames and the ways for them to arrive for which they do.
Trusted boundary: human-reviewed spec
Main exports: LongFrame, Reemits, HeadersSurvive, lineCuts, dropBytes, CutsHarmless, HeadersWhole
-/
import Newtmq.Spec.ClientStream
import Newtmq.Core.Persistent
import Newtmq.Core.SendMessage

namespace Newtmq

/-- A frame as a client sends it, with header lines of any length, of which one announces the length of
the body. The body and its NUL are not longer than the server can count. -/
structure LongFrame where
  command : List UInt8
  headers : List (List UInt8)
  body : List UInt8
  command_known : command ∈ finfoArr
  header_text : ∀ line ∈ headers, HeaderText line
  one_length : headers.countP isLengthHeader = 1
  length_value : ∀ line ∈ headers, isLengthHeader line = true → Decimal (line.drop 15) body.length
  body_clean : (0 : UInt8) ∉ body
  body_bound : body.length + 1 < 2147483648

/-- The bytes of a frame: command line, header lines, blank line, body, NUL. -/
def LongFrame.encode (sent : LongFrame) : List UInt8 :=
  sent.command ++ LF :: (WireFrame.encodeLines sent.headers ++ LF :: (sent.body ++ [0]))

/-! ### What survives -/

/-- `stomp_send_message` sends the lines, and `persist_queue_context` writes them, each with an LF. -/
def Reemits (frame : Frame) (lines : List (List UInt8)) : Prop :=
  (∀ sock, sendLines sock frame.hAttrs =
    lines.flatMap fun line => [⟨sock, line⟩, ⟨sock, [LF]⟩]) ∧
  frame.hAttrs.flatMap (fun header => header.bytes ++ [LF]) = WireFrame.encodeLines lines

/-- The chunks are read, one frame is published for them, and its header lines are those that were
sent. -/
def HeadersSurvive (env : RecvEnv) (sock : Int) (st : RecvState) (chunks : List (List UInt8))
    (sent : LongFrame) : Prop :=
  ∃ result frame, recvChunks env sock chunks st = some result ∧
    result.bucket = st.bucket ++ [frame] ∧ Reemits frame sent.headers

/-! ### Where chunks end -/

/-- The text begins with one of the commands. -/
def BeginsCommand (text : List UInt8) : Prop :=
  ∃ w ∈ finfoArr, w <+: text

instance (text : List UInt8) : Decidable (BeginsCommand text) :=
  inferInstanceAs (Decidable (∃ w ∈ finfoArr, w <+: text))

/-- The chunks without their first `n` bytes. -/
def dropBytes : Nat → List (List UInt8) → List (List UInt8)
  | _, [] => []
  | n, chunk :: later =>
      if n < chunk.length then chunk.drop n :: later else dropBytes (n - chunk.length) later

/-- The parts of a line, the first `n` bytes of the chunks, that end with a chunk, each with the number
of bytes of the line that are still to come. -/
def lineCuts : Nat → List (List UInt8) → List (List UInt8 × Nat)
  | _, [] => []
  | n, chunk :: later =>
      if n < chunk.length then [] else (chunk, n - chunk.length) :: lineCuts (n - chunk.length) later

/-- A part of a header line that ends with a chunk begins with a command only when the line is complete
with it, and then the line is the last one, or the length of the body is not yet `known`. -/
def CutsHarmless : Bool → List (List UInt8) → List (List UInt8) → Prop
  | _, [], _ => True
  | known, line :: lines, chunks =>
      (∀ cut ∈ lineCuts line.length chunks, BeginsCommand cut.1 →
        cut.2 = 0 ∧ (lines = [] ∨ (known || isLengthHeader line) = false)) ∧
      CutsHarmless (known || isLengthHeader line) lines (dropBytes (line.length + 1) chunks)

instance decidableCutsHarmless : ∀ known lines chunks, Decidable (CutsHarmless known lines chunks)
  | _, [], _ => inferInstanceAs (Decidable True)
  | known, line :: lines, chunks =>
      have := decidableCutsHarmless (known || isLengthHeader line) lines
        (dropBytes (line.length + 1) chunks)
      inferInstanceAs (Decidable (_ ∧ _))

/-- No header line is longer than an entry, and no chunk ends in a header line where that does harm. -/
def HeadersWhole (sent : LongFrame) (chunks : List (List UInt8)) : Prop :=
  (∀ line ∈ sent.headers, line.length ≤ LD_MAX) ∧
    CutsHarmless false sent.headers (dropBytes (sent.command.length + 1) chunks)

instance (sent : LongFrame) (chunks : List (List UInt8)) : Decidable (HeadersWhole sent chunks) :=
  inferInstanceAs (Decidable (_ ∧ _))

end Newtmq
