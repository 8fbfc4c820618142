/-
Module: Newtmq.Core.Server
Purpose: The state that the management worker works on, and what the frame handlers do to it besides
  calling the other components: messages to the client, enqueueing, freeing a frame.
Trusted boundary: human-reviewed spec
Main exports: Subscriber, Server, ServerEnv, Handler, sendError, stompSendReceipt, enqueueFrame,
  freeFrame
-/
import Newtmq.Core.Stomp
import Newtmq.Core.Queue
import Newtmq.Core.Transaction
import Newtmq.Core.SendingWorker
import Newtmq.Core.Persistent

namespace Newtmq

/-- `subscribe_t`. -/
structure Subscriber where
  id : List UInt8
  threadId : Nat
deriving DecidableEq, Repr

/-- The state of the components that handlers use. `cancelled` holds the threads given to
`pthread_cancel`, and `freed` the addresses of freed frames. `enqueued` is a record of the calls of
`enqueue`: the name and the address of the frame, in order. -/
structure Server where
  queues : QueueStore FrameObject
  transactions : TransactionManager
  workers : WorkerManager
  subscribers : List Subscriber
  cancelled : List Nat
  persistent : PersistentManager
  wire : List SendMsg
  freed : List Nat
  enqueued : List (List UInt8 × Nat)

/-- The state after the components have been initialized, for some contents of the data directory. -/
def Server.init (datadir : List UInt8) (disk : List UInt8 → Option QueueFiles) : Server :=
  { queues := .empty
    transactions := .init
    workers := ⟨[], []⟩
    subscribers := []
    cancelled := []
    persistent := ⟨datadir, [], disk⟩
    wire := []
    freed := []
    enqueued := [] }

/-- What the system and the rest of the program answer: the bytes that `malloc` returns for a new
transaction, and the functions that callbacks point to. -/
structure ServerEnv extends RecvEnv where
  malloc : Nat → List UInt8
  callbacks : Nat → FrameObject → Server → Ret × Server

/-- An environment in which all sockets are valid. -/
def quietEnv : ServerEnv where
  rand _ := 0
  socketValid _ _ := true
  malloc _ := List.replicate TID_LEN 0
  callbacks _ _ server := (.success, server)

/-- A frame handler returns the frame, or `NULL` when the frame is to be freed. `none` means that the
call does not return: an assertion fails, an array overflows, or a loop does not end. -/
abbrev Handler := ServerEnv → FrameObject → Server → Option (Option FrameObject × Server)

/-- `stomp_send_error`, from a handler. -/
def sendError (env : ServerEnv) (sock : Int) (body : List UInt8) (server : Server) : Server :=
  { server with wire := stompSendError env.toRecvEnv sock body server.wire }

/-- `stomp_send_receipt`. -/
def stompSendReceipt (sock : Int) (id : List UInt8) (server : Server) : Server :=
  if 0 < sock then
    { server with
      wire := server.wire ++
        [⟨sock, cstring "RECEIPT\n"⟩, ⟨sock, cstring "receipt-id:" ++ id ++ [LF]⟩, ⟨sock, [0]⟩] }
  else server

/-- `enqueue` of a frame, with its record. -/
def enqueueFrame (object : FrameObject) (qname : List UInt8) (server : Server) : Server :=
  { server with
    queues := (enqueue (some object) qname server.queues).2
    enqueued := server.enqueued ++ [(cstr qname, object.address)] }

/-- `free_frame`. -/
def freeFrame (object : FrameObject) (server : Server) : Server :=
  { server with freed := server.freed ++ [object.address] }

end Newtmq
