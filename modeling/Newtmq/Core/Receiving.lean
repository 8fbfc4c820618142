/-
Module: Newtmq.Core.Receiving
Purpose: The receiving side of one connection, pass by pass: `stomp_conn_worker` starts a call of
  `recv_data` for each chunk, the call takes one pass of its loop after the other, and `conn_finish`
  runs when the peer has closed the connection.
Trusted boundary: human-reviewed spec
Main exports: Receiving, ReceiveAction, receiveStep
-/
import Newtmq.Library.Transition
import Newtmq.Core.Stomp

namespace Newtmq

/-- `rest` is what the running call of `recv_data` has left of its chunk, when one is running. -/
structure Receiving where
  rest : Option (List UInt8)
  recv : RecvState
  closed : Bool
deriving DecidableEq, Repr

def Receiving.start (recv : RecvState) : Receiving := ⟨none, recv, false⟩

inductive ReceiveAction where
  | receive (chunk : List UInt8)
  | pass
  | close
deriving DecidableEq, Repr

def receiveStep (env : RecvEnv) (sock : Int) (s : Receiving) : ReceiveAction → Option Receiving
  | .receive chunk =>
      if s.rest = none ∧ s.closed = false then some { s with rest := some chunk } else none
  | .pass =>
      s.rest.map fun curr =>
        match recvPass env sock (curr, s.recv) with
        | .again (next, recv) => { s with rest := some next, recv := recv }
        | .leave recv => { s with rest := none, recv := recv }
  | .close =>
      if s.rest = none ∧ s.closed = false then
        some { s with recv := connFinish env s.recv, closed := true }
      else none

end Newtmq
