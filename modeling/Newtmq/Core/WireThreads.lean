/-
Module: Newtmq.Core.WireThreads
Purpose: The threads that write to the sockets of clients. Each frame that a thread writes is a loop of
  `send_msg` calls, and a step of a thread is one of them.
Trusted boundary: human-reviewed spec
Main exports: Emission, WireThread, WireState, wireStep, OneFrameAtATime, Contiguous
-/
import Newtmq.Library.BlockLog
import Newtmq.Core.SendMessage
import Newtmq.Core.Handlers

namespace Newtmq

/-- The frames that the server writes: those of `stomp_send_message`, `stomp_send_receipt`,
`send_connected_msg` and `stomp_send_error`, once their checks of the socket have passed. -/
inductive Emission where
  | message (sock : Int) (frame : Frame) (headers : Option (List Linedata))
  | receipt (sock : Int) (id : List UInt8)
  | connected (sock : Int)
  | error (sock : Int) (body : List UInt8)
deriving DecidableEq, Repr

def Emission.sock : Emission → Int
  | .message sock _ _ => sock
  | .receipt sock _ => sock
  | .connected sock => sock
  | .error sock _ => sock

/-- The calls of `send_msg` that write a frame. -/
def Emission.calls : Emission → List SendMsg
  | .message sock frame headers => stompSendMessage sock frame headers
  | .receipt sock id =>
      [⟨sock, cstring "RECEIPT\n"⟩, ⟨sock, cstring "receipt-id:" ++ id ++ [LF]⟩, ⟨sock, [0]⟩]
  | .connected sock =>
      [⟨sock, cstring "CONNECTED\n"⟩, ⟨sock, cstring "version:1.2\n"⟩, ⟨sock, [LF]⟩, ⟨sock, []⟩,
        ⟨sock, [0]⟩]
  | .error sock body => [⟨sock, cstring "ERROR\n"⟩, ⟨sock, [LF]⟩, ⟨sock, body⟩, ⟨sock, [0]⟩]

theorem stompSendReceipt_wire {sock : Int} (valid : 0 < sock) (id : List UInt8) (server : Server) :
    (stompSendReceipt sock id server).wire = server.wire ++ (Emission.receipt sock id).calls := by
  simp [stompSendReceipt, valid, Emission.calls]

theorem sendConnectedMsg_wire (sock : Int) (server : Server) :
    (sendConnectedMsg sock server).wire = server.wire ++ (Emission.connected sock).calls := rfl

theorem stompSendError_wire {env : RecvEnv} {sock : Int} {wire : List SendMsg}
    (valid : env.socketValid wire sock = true) (body : List UInt8) :
    stompSendError env sock body wire = wire ++ (Emission.error sock body).calls := by
  simp [stompSendError, valid, Emission.calls]

/-- The management worker, the connection threads, and the sending workers: unicast, multicast and
reply. -/
inductive WireThread where
  | management
  | connection (n : Nat)
  | worker (n : Nat)
deriving DecidableEq, Repr

/-- Which thread writes which frames: the workers write `MESSAGE`, a connection thread reports frames
that it cannot parse, and the management worker writes everything else. -/
def WireThread.emits : WireThread → Emission → Bool
  | .worker _, .message _ _ _ => true
  | .connection _, .error _ _ => true
  | .management, .receipt _ _ => true
  | .management, .connected _ => true
  | .management, .error _ _ => true
  | _, _ => false

/-- The frame that each thread is writing, with the calls left, all calls so far, and the frames that
have been written. -/
abbrev WireState := BlockLog.State WireThread Emission SendMsg

/-- A thread begins to write a frame, or makes the next call. -/
def wireStep : WireState → BlockLog.Action WireThread Emission → Option WireState :=
  BlockLog.step Emission.calls WireThread.emits

/-- A thread makes a call only when no other thread has written a part of a frame to the socket. -/
def OneFrameAtATime : WireState → BlockLog.Action WireThread Emission → Prop :=
  BlockLog.OneAtATime Emission.calls Emission.sock

/-- The bytes that the client of a socket receives. -/
def bytesOn (sock : Int) (wire : List SendMsg) : List UInt8 :=
  wireBytes (wire.filter fun call => call.sock = sock)

/-- The bytes on each socket are those of the frames written to it, each whole, and the beginning of
at most one frame that a thread is still writing. -/
def Contiguous (s : WireState) : Prop :=
  ∀ sock, ∃ (whole : List Emission) (sent : List UInt8),
    whole.Perm (s.finished.filter fun emission => emission.sock = sock) ∧
    bytesOn sock s.log = whole.flatMap (fun emission => wireBytes emission.calls) ++ sent ∧
    (sent = [] ∨ ∃ thread emission rest, s.running thread = some (emission, rest) ∧
      emission.sock = sock ∧ wireBytes emission.calls = sent ++ wireBytes rest)

end Newtmq
