/-
Module: Newtmq.Core.Broker
Purpose: The threads between the sockets and the sending workers: `stomp_conn_worker` for each connection,
  the management worker, and the calls of `dequeue`, in any order. The connection threads link the frames
  they have finished into the one bucket. The handling of a frame and a call of `dequeue` are one step
  each; what two calls of `get_queue` at a time do is in `Newtmq.Core.QueueThreads`.
Trusted boundary: human-reviewed spec
Main exports: BrokerEnv, Broker, Broker.start, BrokerAction, brokerStep
-/
import Newtmq.Core.Publishing
import Newtmq.Core.Receiving

namespace Newtmq

/-- What the system answers to the server and to the threads of the connections, and the number of the
descriptor of each connection. -/
structure BrokerEnv where
  server : ServerEnv
  recv : Nat → RecvEnv
  sock : Nat → Int

/-- `unread` holds the bytes that the peer of a connection has sent or is going to send until it closes,
as far as `recv` has not returned them, and `receiving` the thread of the connection, whose `bucket` holds
only the frames that this thread has linked. `taken` is a record of the frames that `dequeue` has
returned, with the hash numbers of the queues. -/
structure Broker where
  unread : Nat → List UInt8
  receiving : Nat → Receiving
  publishing : Publishing
  taken : List (UInt64 × FrameObject)

/-- What `stomp_conn_worker` starts with, after `conn_init`. -/
def connStart (env : RecvEnv) : RecvState :=
  { cinfo := connInit env 0
    bucket := []
    wire := []
    rands := CONN_ID_LEN - 1 }

/-- The server before the first connection, with the streams that the connections are going to send. -/
def Broker.start (env : BrokerEnv) (streams : Nat → List UInt8) (server : Server) : Broker :=
  { unread := streams
    receiving := fun connection => .start (connStart (env.recv connection))
    publishing := .start server
    taken := [] }

/-- `recv` returns `count` bytes to a connection, its thread makes a pass of the loop of `recv_data`, or
`recv` returns 0 and the thread runs `conn_finish`; the management worker takes a frame from the bucket or
handles it; a sending worker calls `dequeue`. -/
inductive BrokerAction where
  | receive (connection count : Nat)
  | pass (connection : Nat)
  | close (connection : Nat)
  | get
  | handle
  | dequeue (qname : List UInt8)
deriving DecidableEq, Repr

/-- A connection thread takes a step, and the frames that it has finished are linked. -/
def Broker.advance (env : BrokerEnv) (connection : Nat) (action : ReceiveAction) (s : Broker) :
    Option Broker :=
  (receiveStep (env.recv connection) (env.sock connection) (s.receiving connection) action).bind
    fun next =>
      ((next.recv.bucket.drop (s.receiving connection).recv.bucket.length).foldlM
          (fun publishing frame => publishingStep env.server publishing (.finish connection frame))
          s.publishing).map
        fun publishing =>
          { s with
            receiving := Function.update s.receiving connection next
            publishing := publishing }

def brokerStep (env : BrokerEnv) (s : Broker) : BrokerAction → Option Broker
  | .receive connection count =>
      if 0 < count ∧ count ≤ RECV_BUFSIZE ∧ count ≤ (s.unread connection).length then
        (s.advance env connection (.receive ((s.unread connection).take count))).map fun next =>
          { next with
            unread := Function.update s.unread connection ((s.unread connection).drop count) }
      else none
  | .pass connection => s.advance env connection .pass
  | .close connection =>
      if s.unread connection = [] then s.advance env connection .close else none
  | .get => (publishingStep env.server s.publishing .get).map fun next => { s with publishing := next }
  | .handle =>
      (publishingStep env.server s.publishing .handle).map fun next => { s with publishing := next }
  | .dequeue qname =>
      (publishingStep env.server s.publishing (.dequeue qname)).map fun next =>
        { s with
          publishing := next
          taken := s.taken ++
            ((dequeue qname s.publishing.server.queues).1.map fun object =>
              (getHash qname, object)).toList }

end Newtmq
