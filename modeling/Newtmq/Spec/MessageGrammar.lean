/-
Module: Newtmq.Spec.MessageGrammar
Purpose: The grammar of a STOMP frame as a client reads it, and what a `MESSAGE` frame is to say.
Trusted boundary: human-reviewed spec
Main exports: Grammar, MessageDecodes
-/
import Newtmq.Core.SendMessage
import Newtmq.Spec.Encoding

namespace Newtmq

open WireFrame (encodeLines)

/-- The bytes are a frame of the grammar: the command and each header line ended by an LF, a blank
line, the body and one NUL. There is no LF or NUL within a line. -/
structure Grammar (bytes command : List UInt8) (headers : List (List UInt8)) (body : List UInt8) :
    Prop where
  layout : bytes = command ++ LF :: (encodeLines headers ++ LF :: (body ++ [0]))
  command_line : command ≠ [] ∧ ∀ c ∈ command, c ≠ LF ∧ c ≠ 0
  header_line : ∀ header ∈ headers, header ≠ [] ∧ ∀ c ∈ header, c ≠ LF ∧ c ≠ 0

/-- The bytes that `stomp_send_message` sends for the frame are a `MESSAGE` frame with the headers of
the frame, the extra ones and a `message-id`, and with the body of the frame. -/
def MessageDecodes (frame : Frame) (headers : Option (List Linedata)) : Prop :=
  ∀ sock, ∃ value,
    Grammar (wireBytes (stompSendMessage sock frame headers)) (cstring "MESSAGE")
      (entryLines frame.hAttrs ++ entryLines (headers.getD []) ++ [cstring "message-id:" ++ value])
      (entryLines frame.hData).flatten

end Newtmq
