/-
Module: Newtmq.Spec.MulticastRound
Purpose: What a round of `multicast_worker` is to do: one `MESSAGE` for each live client, the others
  unlinked, and the sent index written once, after the last message and before the frame is freed.
Trusted boundary: human-reviewed spec
Main exports: RoundEvent.message?, RoundEvent.unlinked?, RoundServes
-/
import Newtmq.Core.MulticastRound

namespace Newtmq

/-- The client that a message goes to, and the calls. -/
def RoundEvent.message? : RoundEvent → Option (Nat × List SendMsg)
  | .message client calls => some (client, calls)
  | .unlink _ | .updateIndexSent _ _ | .free _ => none

/-- The client that is unlinked. -/
def RoundEvent.unlinked? : RoundEvent → Option Nat
  | .unlink client => some client
  | .message _ _ | .updateIndexSent _ _ | .free _ => none

/-- A message, or a client that is unlinked. -/
def RoundEvent.forClient (event : RoundEvent) : Bool :=
  event.message?.isSome || event.unlinked?.isSome

/-- The events of a round for the clients at these nodes: the valid ones are sent the frame once, in list
order, the others are unlinked, and then the sent index is updated and the frame is freed. -/
structure RoundServes (group : ClientGroup) (valid : Nat → Bool) (object : FrameObject)
    (nodes : List Nat) (events : List RoundEvent) : Prop where
  messages : events.filterMap RoundEvent.message? = (nodes.filter valid).map fun node =>
    (node, stompSendMessage (group.client node).sock object.frame
      (some (group.client node).headers))
  unlinked : events.filterMap RoundEvent.unlinked? = nodes.filter fun node => !valid node
  ending : ∃ sent, events = sent ++ [.updateIndexSent group.destination object, .free object] ∧
    ∀ event ∈ sent, event.forClient = true

end Newtmq
