/-
Module: Newtmq.Spec.PendingCounters
Purpose: What the two counters of a `queue_info` object say of the frames that wait to be written, and
  that such frames are noticed by the persistent worker.
Trusted boundary: human-reviewed spec
Main exports: HandlerPoint.growing, CountersAgree, FlushedByPass, FlushedByNextIteration,
  PendingNoticed
-/
import Newtmq.Library.Transition
import Newtmq.Core.Restarts
import Newtmq.Spec.SentIndex

namespace Newtmq

open Transition (run guarded)

/-- The size of the frame that has been linked in the object at `place`, while it is not yet counted in
`index_head`. -/
def HandlerPoint.growing (place : Nat) : HandlerPoint → Int
  | .linked _ object at' => if at' = place then object.frame.size else 0
  | _ => 0

/-- A `persist_frame` is between its two steps at this object. -/
def HandlerPoint.Between (place : Nat) (point : HandlerPoint) : Prop :=
  ∃ qname object, point = .linked qname object place

/-- The difference of the counters of each object, with the frame between the two steps, is the size of
the frames that wait. -/
def CountersAgree (s : Delivery) : Prop :=
  ∀ place qinfo, s.pm.qinfos[place]? = some qinfo →
    qinfo.indexHead - qinfo.indexPersistent + s.handler.growing place =
      totalSize qinfo.unpersistent

/-- The frames that are accepted have a positive size. -/
def PositiveSizes : DeliveryAction → Prop
  | .accept _ object => 0 < object.frame.size
  | _ => True

instance : ∀ action, Decidable (PositiveSizes action)
  | .accept _ _ => inferInstanceAs (Decidable (_ < _))
  | .create | .link | .grow | .enqueue | .dequeue _ | .send _ | .count _ | .enter | .storeIndex
  | .compare | .write => .isTrue trivial

def LifeAction.Positive : LifeAction → Prop
  | .thread action => PositiveSizes action
  | .restart _ _ _ => True

instance : ∀ action : LifeAction, Decidable action.Positive
  | .thread action => inferInstanceAs (Decidable (PositiveSizes action))
  | .restart _ _ _ => .isTrue trivial

/-- What an iteration of the worker that nobody disturbs does with the object: all frames that wait are
written, in order. -/
def FlushedByPass (s : Delivery) (qinfo : QueueInfo) : Prop :=
  (persistentWorkerPass qinfo s.pm).1.unpersistent = [] ∧
    (persistentWorkerPass qinfo s.pm).2.dataFile qinfo.dirpath =
      s.pm.dataFile qinfo.dirpath ++ framesBytes qinfo.unpersistent

/-- Whatever steps the threads take, the worker has written the frames when it has left the first
iteration that it enters. -/
def FlushedByNextIteration (destination : Nat → List UInt8) (s : Delivery) (qinfo : QueueInfo) : Prop :=
  ∀ before during last,
    run (guarded (deliveryStep destination) fun _ => PositiveSizes) s (before ++ .enter :: during) =
      some last →
    last.flusher = .outside →
      ∃ new, last.written = s.written ++ new ∧
        (qinfo.unpersistent.map fun object => (qinfo.qid, object)).Sublist new

/-- The counters agree, and an object with frames that wait, none of them between its two steps, is
flushed by the next iteration. -/
structure PendingNoticed (destination : Nat → List UInt8) (s : Delivery) : Prop where
  agree : CountersAgree s
  noticed : ∀ place qinfo, s.pm.qinfos[place]? = some qinfo → qinfo.unpersistent ≠ [] →
    ¬ s.handler.Between place →
      qinfo.indexPersistent < qinfo.indexHead ∧ FlushedByPass s qinfo ∧
        FlushedByNextIteration destination s qinfo

end Newtmq
