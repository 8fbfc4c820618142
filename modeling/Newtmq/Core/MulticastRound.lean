/-
Module: Newtmq.Core.MulticastRound
Purpose: One round of `multicast_worker`, on the linked list of the clients of its group: the loop that
  sends the frame to a client or unlinks it, and what follows the loop.
Trusted boundary: human-reviewed spec
Main exports: ClientGroup, RoundEvent, visitClient, RoundReturns
-/
import Newtmq.Library.LinkedRing
import Newtmq.Core.SubscriptionHeaders

namespace Newtmq

open LinkedRing (Links Cursor eachSafe cursorAt)

/-- `dest_group_t` with its clients: the addresses of `h_client` and of the list nodes, and the client
that each node is part of. -/
structure ClientGroup where
  destination : List UInt8
  hClient : Nat
  client : Nat → ClientInfo

/-- What a round does: the calls of `send_msg` for a client, an unlinked client, the call of
`update_index_sent`, and the call of `free_frame`. -/
inductive RoundEvent where
  | message (client : Nat) (calls : List SendMsg)
  | unlink (client : Nat)
  | updateIndexSent (destination : List UInt8) (object : FrameObject)
  | free (object : FrameObject)
deriving DecidableEq, Repr

/-- The body of the loop, for the client at a node. `valid` gives the answers of `is_socket_valid`. -/
def visitClient (group : ClientGroup) (valid : Nat → Bool) (object : FrameObject) (node : Nat) :
    Links Nat × List RoundEvent → Option (Links Nat × List RoundEvent)
  | (links, events) =>
      if valid node then
        let client := group.client node
        some (links, events ++
          [.message node (stompSendMessage client.sock object.frame (some client.headers))])
      else (LinkedRing.remove links node).map fun links => (links, events ++ [.unlink node])

/-- The round with the frame ends, with these pointers and after these events. -/
def RoundReturns (group : ClientGroup) (valid : Nat → Bool) (object : FrameObject) (links : Links Nat)
    (later : Links Nat) (events : List RoundEvent) : Prop :=
  ∃ cursor sent, cursorAt group.hClient links [] = some cursor ∧
    Loop.Returns (eachSafe group.hClient (visitClient group valid object)) cursor
      (some (later, sent)) ∧
    events = sent ++ [.updateIndexSent group.destination object, .free object]

end Newtmq
