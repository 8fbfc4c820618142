/-
Module: Newtmq.Spec.Recipients
Purpose: Which connections may receive the messages of a destination, and the condition on the numbers
  of descriptors and on the destinations under which only these do.
Trusted boundary: human-reviewed spec
Main exports: FreshServer, Connections.references, KeepsApart, OnlyAsked
-/
import Newtmq.Core.Connections
import Newtmq.Proofs.ServerSteps
import Newtmq.Proofs.QueueMap

namespace Newtmq

/-- Destinations with different hash numbers. -/
def HashApart (names : List (List UInt8)) : Prop :=
  ∀ one ∈ names, ∀ other ∈ names, getHash one = getHash other → one = other

instance (names : List (List UInt8)) : Decidable (HashApart names) :=
  inferInstanceAs (Decidable (∀ one ∈ names, ∀ other ∈ names, _))

/-- A server without workers. The frames in its queues, if any were recovered, are for some of the
destinations `names`, each in the queue of its destination. -/
structure FreshServer (server : Server) (names : List (List UInt8)) : Prop where
  workers : server.workers = ⟨[], []⟩
  transactions : NoCallbacks server.transactions
  queues : server.queues.WellFormed
  filed : ∀ hashnum, ∀ object ∈ contents hashnum server.queues, ∃ destination ∈ names,
    object.frame.destination = some destination ∧ getHash destination = hashnum
  apart : HashApart names

/-- The numbers of descriptors that a thread refers to: those of its clients, and those in the calls
that it has to make. -/
def Connections.sockets (s : Connections) (n : Nat) (worker : Worker) : List Int :=
  (s.server.workers.clients worker).map ClientInfo.sock ++ (s.senders n).calls.map SendMsg.sock

/-- The numbers of descriptors that frames in the bucket and the threads that are running refer to. -/
def Connections.references (s : Connections) : List Int :=
  s.bucket.map (fun object => object.frame.sock) ++
    (s.server.workers.workers.zipIdx.filter fun entry => !(s.senders entry.2).hasEnded).flatMap
      fun entry => s.sockets entry.2 entry.1

/-- A new connection gets the number of a closed descriptor only when nothing refers to this number any
more, and no two destinations have the same hash number. -/
def KeepsApart (s : Connections) : ConnectionsAction → Prop
  | .accept sock => sock ∉ s.references
  | .receive object => HashApart (s.mentioned ++ object.frame.mentions)
  | .close _ | .manage | .check _ _ | .dequeue _ | .visit _ _ | .call _ | .finish _ => True

instance (s : Connections) : ∀ action, Decidable (KeepsApart s action)
  | .accept sock => inferInstanceAs (Decidable (sock ∉ s.references))
  | .receive object => inferInstanceAs (Decidable (HashApart (s.mentioned ++ object.frame.mentions)))
  | .close _ | .manage | .check _ _ | .dequeue _ | .visit _ _ | .call _ | .finish _ => .isTrue trivial

/-- Each part of a `MESSAGE` was written to a connection that has asked for its destination. -/
def OnlyAsked (s : Connections) : Prop :=
  ∀ entry ∈ s.written, ∃ destination,
    entry.2.frame.destination = some destination ∧ (entry.1, destination) ∈ s.asked

end Newtmq
