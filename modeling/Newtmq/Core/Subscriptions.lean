/-
Module: Newtmq.Core.Subscriptions
Purpose: The management worker and the sending workers with a record of the subscriptions: which
  `SUBSCRIBE` frame each thread and each client of a group comes from, and to which subscription each
  `MESSAGE` frame is sent. One step of a sending worker is one pass of its loop.
Trusted boundary: human-reviewed spec
Main exports: Subscription, subscriptionOf, Subscriptions, SubscriptionAction, serveStep,
  subscriptionStep
-/
import Newtmq.Library.Transition
import Newtmq.Core.Connections

namespace Newtmq

/-- A `SUBSCRIBE` frame that has been handled: its client, its id and its destination. -/
structure Subscription where
  sock : Int
  cinfo : Option (List UInt8)
  id : Option (List UInt8)
  destination : List UInt8
deriving DecidableEq, Repr

/-- The name of the header with the id. -/
def idName : List UInt8 := cstring "id:"

/-- The subscription that a frame asks for. -/
def subscriptionOf (frame : Frame) : Option Subscription :=
  if (cstring "SUBSCRIBE").isPrefixOf frame.name then
    frame.destination.map fun destination =>
      ⟨frame.sock, frame.cinfo, headerValue idName frame.hAttrs, destination⟩
  else none

/-- `ended` tells which of the threads have left their loops. Records: the subscriptions, numbered in
the order in which they were handled; the number that each thread was created for; the numbers that the
clients of each group were linked for, in list order; and the `MESSAGE` frames that were sent, by
subscription and address of the frame. A thread or a client of a reply-to destination has no number. -/
structure Subscriptions where
  server : Server
  ended : Nat → Bool
  handled : List Subscription
  threads : List (Option Nat)
  clients : Nat → List (Option Nat)
  sent : List (Nat × Nat)

def Subscriptions.start (server : Server) : Subscriptions :=
  ⟨server, fun _ => false, [], [], fun _ => [], []⟩

/-- The management worker handles a frame, or the thread `n` takes one pass of its loop. `valid` gives
the answers of `is_socket_valid` in this pass, by the place of the client. -/
inductive SubscriptionAction where
  | handle (object : FrameObject)
  | serve (n : Nat) (valid : Nat → Bool)

/-- The elements at the places that `valid` names. -/
def keptPlaces {α : Type} (valid : Nat → Bool) : List α → List α
  | [] => []
  | x :: xs =>
      if valid 0 then x :: keptPlaces (fun place => valid (place + 1)) xs
      else keptPlaces (fun place => valid (place + 1)) xs

/-- `multicast_worker` has unlinked the clients that were not valid. -/
def WorkerManager.keepClients (manager : WorkerManager) (group : Nat) (valid : Nat → Bool) :
    WorkerManager :=
  { manager with
    groups := manager.groups.modify group fun group =>
      { group with clients := keptPlaces valid group.clients } }

/-- The record of a frame that is sent to these clients. -/
def sentTo (numbers : List (Option Nat)) (object : FrameObject) : List (Nat × Nat) :=
  numbers.filterMap fun number => number.map fun number => (number, object.address)

/-- The calls of `send_msg` for these clients. -/
def messagesTo (clients : List ClientInfo) (object : FrameObject) (extra : Option (List Linedata)) :
    List SendMsg :=
  clients.flatMap fun client => stompSendMessage client.sock object.frame extra

def Subscriptions.endThread (s : Subscriptions) (n : Nat) : Subscriptions :=
  { s with ended := Function.update s.ended n true }

def Subscriptions.setQueues (s : Subscriptions) (queues : QueueStore FrameObject) : Subscriptions :=
  { s with server := { s.server with queues := queues } }

/-- One pass of `reply_worker` or of `unicast_worker`. -/
def serveClient (s : Subscriptions) (n : Nat) (valid : Bool) (worker : Worker) (client : ClientInfo)
    (destination : List UInt8) : Subscriptions :=
  if valid then
    match dequeue destination s.server.queues with
    | (none, queues) => s.setQueues queues
    | (some object, queues) =>
        { s with
          server := endPass destination object
            { s.server with
              queues := queues
              wire := s.server.wire ++ messagesTo [client] object none } worker
          sent := s.sent ++ sentTo [s.threads[n]?.join] object }
  else s.endThread n

/-- One pass of `multicast_worker`: the frame goes to the clients that are valid, and the others are
unlinked. -/
def serveGroup (s : Subscriptions) (n : Nat) (valid : Nat → Bool) (group : Nat)
    (destination : List UInt8) : Subscriptions :=
  if s.server.workers.clients (.multicast group) = [] then s.endThread n
  else
    match dequeue destination s.server.queues with
    | (none, queues) => s.setQueues queues
    | (some object, queues) =>
        let manager := s.server.workers.keepClients group valid
        let numbers := keptPlaces valid (s.clients group)
        { s with
          server := endPass destination object
            { s.server with
              queues := queues
              workers := manager
              wire := s.server.wire ++
                messagesTo (manager.clients (.multicast group)) object (some []) } (.multicast group)
          clients := Function.update s.clients group numbers
          sent := s.sent ++ sentTo numbers object }

def serveStep (s : Subscriptions) (n : Nat) (valid : Nat → Bool) (destination : List UInt8) :
    Worker → Subscriptions
  | .reply group client => serveClient s n (valid 0) (.reply group client) client destination
  | .unicast group client => serveClient s n (valid 0) (.unicast group client) client destination
  | .multicast group => serveGroup s n valid group destination

/-- The clients that the handled frame has added to a group are those of its subscription. -/
def recordClients (before after : WorkerManager) (number : Option Nat)
    (clients : Nat → List (Option Nat)) (group : Nat) : List (Option Nat) :=
  clients group ++ List.replicate ((after.clients (.multicast group)).length -
    (before.clients (.multicast group)).length) number

/-- One step. A frame that the parser has completed has no callback. A thread that has been cancelled or
has left its loop takes no more steps. -/
def subscriptionStep (env : ServerEnv) (s : Subscriptions) : SubscriptionAction → Option Subscriptions
  | .handle object =>
      if object.frame.transactionCallback = none then
        (handleFrame env object s.server).map fun server =>
          let number := (subscriptionOf object.frame).map fun _ => s.handled.length
          { s with
            server := server
            handled := s.handled ++ (subscriptionOf object.frame).toList
            threads := s.threads ++ List.replicate
              (server.workers.workers.length - s.server.workers.workers.length) number
            clients := recordClients s.server.workers server.workers number s.clients }
      else none
  | .serve n valid =>
      if s.ended n = false ∧ n ∉ s.server.cancelled then
        s.server.workers.workers[n]?.bind fun worker =>
          (s.server.workers.destination worker).map fun destination =>
            serveStep s n valid destination worker
      else none

end Newtmq
