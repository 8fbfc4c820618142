/-
Module: Newtmq.Spec.UnicastDelivery
Purpose: What the delivery of a queue to unicast subscribers is to guarantee, and the condition on the
  outcomes of `send` under which it does.
Trusted boundary: human-reviewed spec
Main exports: AcceptsAll, Unicast.deliveredInFull, DeliveredOrKept
-/
import Newtmq.Core.UnicastDelivery
import Newtmq.Spec.SentIndex

namespace Newtmq

/-- The socket accepts all bytes of each call. -/
def AcceptsAll (s : Unicast) : UnicastAction → Prop
  | .call worker outcome => ∀ call ∈ (s.calls worker).head?,
      call.msg.take (outcome.getD 0) = call.msg
  | .base _ => True

instance (s : Unicast) : ∀ action, Decidable (AcceptsAll s action)
  | .call worker _ => inferInstanceAs (Decidable (∀ call ∈ (s.calls worker).head?, _))
  | .base _ => .isTrue trivial

/-- The frames of a queue of which the socket of a worker has accepted all bytes, once for each time. -/
def Unicast.deliveredInFull (destination : Nat → List UInt8) (sock : Nat → Int) (s : Unicast)
    (hashnum : UInt64) : List FrameObject :=
  (s.transfers.filter fun transfer => getHash (destination transfer.worker) = hashnum ∧
    transfer.accepted = messageBytes sock transfer.worker transfer.object).map Transfer.object

/-- When no worker of a queue has a frame in hand, each frame that was ever put into the queue is in it
or was delivered in full to one subscriber, and `index_sent` counts only such frames. -/
def DeliveredOrKept (destination : Nat → List UInt8) (sock : Nat → Int) (start : Delivery)
    (s : Unicast) : Prop :=
  ∀ hashnum, (∀ worker, getHash (destination worker) = hashnum → s.base.workers worker = .idle) →
    (contents hashnum start.queues ++ ofHash hashnum s.enqueued).Perm
        (contents hashnum s.base.queues ++ s.deliveredInFull destination sock hashnum) ∧
      ∃ counted : List FrameObject, counted.Subperm (s.deliveredInFull destination sock hashnum) ∧
        ∀ qinfo ∈ s.base.pm.qinfos, qinfo.qid = hashnum →
          qinfo.indexSent = unpersistQueueInfo qinfo.dirpath start.pm + totalSize counted

end Newtmq
