/-
Module: Newtmq.Spec.FrameOwnership
Purpose: Where a frame can be while the threads run: in the bucket, in a queue, in a transaction, with a
  sending worker, or freed. A frame that is in one of these places is in no other.
Trusted boundary: human-reviewed spec
Main exports: QueueStore.addresses, TransactionManager.addresses, Connections.inHands,
  Connections.places, receivedAddresses
-/
import Newtmq.Core.Connections

namespace Newtmq

/-- The frames in all queues. -/
def QueueStore.addresses (store : QueueStore FrameObject) : List Nat :=
  store.objects.flatMap fun queue => queue.entries.map FrameObject.address

/-- The frames in all transactions. -/
def TransactionManager.addresses (manager : TransactionManager) : List Nat :=
  manager.list.flatMap fun transaction => transaction.frames.map FrameObject.address

/-- The frames that the sending workers have dequeued and not yet done with. -/
def Connections.inHands (s : Connections) : List Nat :=
  (List.range s.server.workers.workers.length).filterMap fun n =>
    (s.senders n).object.map FrameObject.address

/-- The frames that the server holds, and those that it has freed. -/
def Server.places (server : Server) : List Nat :=
  server.queues.addresses ++ (server.transactions.addresses ++ server.freed)

/-- All places of frames. A frame that is in two places, or twice in one, occurs twice. -/
def Connections.places (s : Connections) : List Nat :=
  s.bucket.map FrameObject.address ++ (s.server.places ++ s.inHands)

/-- The frame that a connection thread puts into the bucket. -/
def newlyReceived : ConnectionsAction → List Nat
  | .receive object => [object.address]
  | _ => []

/-- The frames that are put into the bucket during a run. -/
def receivedAddresses (actions : List ConnectionsAction) : List Nat :=
  actions.flatMap newlyReceived

end Newtmq
