/-
Module: Newtmq.Core.FrameDisposal
Purpose: The delivering threads with the last statement of `multicast_worker`, which frees the frame
  that it has sent and counted.
Trusted boundary: human-reviewed spec
Main exports: Disposal, DisposalAction, disposalStep, PendingLive, FreesWritten
-/
import Newtmq.Core.Delivery

namespace Newtmq

/-- `holding` is the frame that a multicast worker has counted and is about to free. Two records: the
addresses of the frames that were freed, and of those that were allocated. -/
structure Disposal where
  base : Delivery
  holding : Nat → Option FrameObject
  freed : List Nat
  allocated : List Nat

/-- A step of a thread up to there, or `free_frame`. -/
inductive DisposalAction where
  | base (action : DeliveryAction)
  | free (worker : Nat)
deriving DecidableEq, Repr

def Disposal.start (base : Delivery) (allocated : List Nat) : Disposal :=
  ⟨base, fun _ => none, [], allocated⟩

/-- The address of a frame that has just been accepted is a new one. -/
def NewAddress (allocated : List Nat) : DeliveryAction → Prop
  | .accept _ object => object.address ∉ allocated
  | _ => True

instance (allocated : List Nat) : ∀ action, Decidable (NewAddress allocated action)
  | .accept _ object => inferInstanceAs (Decidable (object.address ∉ allocated))
  | .create | .link | .grow | .enqueue | .dequeue _ | .send _ | .count _ | .enter | .storeIndex
  | .compare | .write => .isTrue trivial

/-- The address that an accepted frame takes. -/
def newAddresses : DeliveryAction → List Nat
  | .accept _ object => [object.address]
  | _ => []

/-- Where `multicast_worker` is after a step: with a frame to free, when the step has counted one. -/
def afterCount (multicast : Nat → Bool) (s : Disposal) : DeliveryAction → Nat → Option FrameObject
  | .count worker =>
      match s.base.workers worker with
      | .sent object =>
          if multicast worker then Function.update s.holding worker (some object) else s.holding
      | _ => s.holding
  | _ => s.holding

/-- The worker that takes a step. -/
def DeliveryAction.worker : DeliveryAction → Option Nat
  | .dequeue worker | .send worker | .count worker => some worker
  | _ => none

/-- A worker that is about to free a frame does nothing else. `multicast` tells which of the workers
run `multicast_worker`. -/
def disposalStep (destination : Nat → List UInt8) (multicast : Nat → Bool) (s : Disposal) :
    DisposalAction → Option Disposal
  | .base action =>
      if NewAddress s.allocated action ∧ ∀ worker ∈ action.worker, s.holding worker = none then
        (deliveryStep destination s.base action).map fun base =>
          { base := base
            holding := afterCount multicast s action
            freed := s.freed
            allocated := s.allocated ++ newAddresses action }
      else none
  | .free worker =>
      (s.holding worker).map fun object =>
        { s with
          holding := Function.update s.holding worker none
          freed := s.freed ++ [object.address] }

/-- No frame that waits to be written has been freed. The model unlinks a frame when it has written it;
`persist_queue_context` does so before, under the mutex that it holds while it writes. -/
def PendingLive (s : Disposal) : Prop :=
  ∀ qinfo ∈ s.base.pm.qinfos, ∀ object ∈ qinfo.unpersistent, object.address ∉ s.freed

/-- A frame is freed only after it was written, unless it is one of those that were recovered. -/
def FreesWritten (recovered : List Nat) (s : Disposal) : DisposalAction → Prop
  | .free worker => ∀ object ∈ s.holding worker,
      object.address ∈ recovered ∨ object.address ∈ s.base.written.map fun entry => entry.2.address
  | .base _ => True

instance (recovered : List Nat) (s : Disposal) : ∀ action, Decidable (FreesWritten recovered s action)
  | .free worker => inferInstanceAs (Decidable (∀ object ∈ s.holding worker, _))
  | .base _ => .isTrue trivial

end Newtmq
