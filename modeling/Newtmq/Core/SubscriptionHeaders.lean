/-
Module: Newtmq.Core.SubscriptionHeaders
Purpose: The header that `unicast_worker` and `multicast_worker` write for a client with an id, and the
  `MESSAGE` frames that one pass of a sending worker sends, each with the subscription it is for.
Trusted boundary: human-reviewed spec
Main exports: subscriptionHeaders, Worker.headers, SentMessage, Subscriptions.serving,
  Subscriptions.messages
-/
import Newtmq.Core.Subscriptions

namespace Newtmq

/-- The list with the line that is written for a client with an id. -/
def subscriptionHeaders (id : List UInt8) : List Linedata :=
  stompSetdata (cstring "subscription: " ++ id) []

/-- The header lines that a worker adds for a client. -/
def ClientInfo.headers (client : ClientInfo) : List Linedata :=
  (client.id.map subscriptionHeaders).getD []

/-- The argument `headers` of `stomp_send_message`. `reply_worker` passes `NULL`. -/
def Worker.headers (client : ClientInfo) : Worker → Option (List Linedata)
  | .reply _ _ => none
  | .unicast _ _ => client.id.map subscriptionHeaders
  | .multicast _ => some client.headers

/-- A `MESSAGE` frame that was sent: the number of the subscription of its client, the frame it was made
of, and the calls of `send_msg`. -/
structure SentMessage where
  subscription : Option Nat
  object : FrameObject
  calls : List SendMsg
deriving DecidableEq, Repr

/-- The thread `n` and the destination that it serves, if it may take a pass. -/
def Subscriptions.serving (s : Subscriptions) (n : Nat) : Option (Worker × List UInt8) :=
  if s.ended n = false ∧ n ∉ s.server.cancelled then
    s.server.workers.workers[n]?.bind fun worker =>
      (s.server.workers.destination worker).map fun destination => (worker, destination)
  else none

/-- The valid clients of a pass, with the numbers of their subscriptions. -/
def Subscriptions.recipients (s : Subscriptions) (n : Nat) (valid : Nat → Bool) :
    Worker → List (Option Nat × ClientInfo)
  | .reply _ client | .unicast _ client =>
      if valid 0 then [(s.threads[n]?.join, client)] else []
  | .multicast group =>
      keptPlaces valid ((s.clients group).zip (s.server.workers.clients (.multicast group)))

/-- The `MESSAGE` frames that a thread makes of a frame for these clients. -/
def Worker.messages (worker : Worker) (object : FrameObject)
    (recipients : List (Option Nat × ClientInfo)) : List SentMessage :=
  recipients.map fun (number, client) =>
    ⟨number, object, stompSendMessage client.sock object.frame (worker.headers client)⟩

/-- The `MESSAGE` frames that a step sends. -/
def Subscriptions.messages (s : Subscriptions) : SubscriptionAction → List SentMessage
  | .handle _ => []
  | .serve n valid =>
      match s.serving n with
      | none => []
      | some (worker, destination) =>
          match (dequeue destination s.server.queues).1 with
          | none => []
          | some object => worker.messages object (s.recipients n valid worker)

end Newtmq
