/-
Module: Newtmq.Spec.Answers
Purpose: What the management worker is to send for a frame: what a server that has handled nothing else
  sends for it. That is nothing, or one whole answer to the client that has sent the frame; a client tells
  the answers apart by the NUL at the end of each.
Trusted boundary: human-reviewed spec
Main exports: answer, answerCommands, WholeAnswer, receivedOn
-/
import Newtmq.Core.Handlers

namespace Newtmq

/-- An environment in which all sockets are valid, or none. -/
def answerEnv (valid : Bool) : ServerEnv :=
  { quietEnv with socketValid := fun _ _ => valid }

/-- A server that has handled nothing. -/
def freshServer : Server :=
  Server.init [] fun _ => none

/-- The messages that such a server sends for a frame, when its socket is valid or not. -/
def answer (valid : Bool) (object : FrameObject) : List SendMsg :=
  ((handleFrame (answerEnv valid) object freshServer).map Server.wire).getD []

/-- The commands of the frames that a client is answered with. -/
def answerCommands : List (List UInt8) :=
  [cstring "CONNECTED", cstring "RECEIPT", cstring "ERROR"]

/-- Some messages are none, or together one answer: a command line, more bytes, and the only NUL at the
end. All of them go to the one socket. -/
def WholeAnswer (sock : Int) (messages : List SendMsg) : Prop :=
  (∀ message ∈ messages, message.sock = sock) ∧
    (messages = [] ∨ ∃ command ∈ answerCommands, ∃ text : List UInt8, (0 : UInt8) ∉ text ∧
      messages.flatMap SendMsg.msg = command ++ [LF] ++ text ++ [0])

/-- The messages sent to one client. -/
def receivedOn (sock : Int) (wire : List SendMsg) : List SendMsg :=
  wire.filter fun message => message.sock = sock

end Newtmq
