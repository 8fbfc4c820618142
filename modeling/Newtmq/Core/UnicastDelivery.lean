/-
Module: Newtmq.Core.UnicastDelivery
Purpose: The delivering threads with the calls of `send_msg` that `unicast_worker` makes for a frame, each
  with the outcome of `send`: all bytes are accepted, fewer, or none because of an error.
Trusted boundary: human-reviewed spec
Main exports: Transfer, Unicast, UnicastAction, messageBytes, unicastStep
-/
import Newtmq.Core.SendMessage
import Newtmq.Core.Delivery

namespace Newtmq

/-- What the socket of a worker has accepted of a frame when `stomp_send_message` returns. -/
structure Transfer where
  worker : Nat
  object : FrameObject
  accepted : List UInt8
deriving DecidableEq, Repr

/-- `calls` are the calls that each worker has yet to make for its frame, and `accepted` are the bytes
that were accepted so far. Two records: the frames that were enqueued, and the transfers. -/
structure Unicast where
  base : Delivery
  calls : Nat → List SendMsg
  accepted : Nat → List UInt8
  enqueued : List (UInt64 × FrameObject)
  transfers : List Transfer

def Unicast.start (base : Delivery) : Unicast :=
  ⟨base, fun _ => [], fun _ => [], [], []⟩

/-- A step of a thread, or a call of `send_msg`. The outcome is the number of bytes accepted, or none
for an error. -/
inductive UnicastAction where
  | base (action : DeliveryAction)
  | call (worker : Nat) (outcome : Option Nat)
deriving DecidableEq, Repr

/-- The bytes of the `MESSAGE` frame for a worker. No client has an id, so there are no extra headers. -/
def messageBytes (sock : Nat → Int) (worker : Nat) (object : FrameObject) : List UInt8 :=
  wireBytes (stompSendMessage (sock worker) object.frame none)

/-- The record of the end of `stomp_send_message`. -/
def Unicast.transferBy (s : Unicast) : DeliveryAction → List Transfer
  | .send worker =>
      match s.base.workers worker with
      | .dequeued object => [⟨worker, object, s.accepted worker⟩]
      | _ => []
  | _ => []

/-- `stomp_send_message` returns when it has made all calls. -/
def Unicast.MayReturn (s : Unicast) : DeliveryAction → Prop
  | .send worker => s.calls worker = []
  | _ => True

instance (s : Unicast) : ∀ action, Decidable (s.MayReturn action)
  | .send worker => inferInstanceAs (Decidable (s.calls worker = []))
  | .accept _ _ | .create | .link | .grow | .enqueue | .dequeue _ | .count _ | .enter | .storeIndex
  | .compare | .write => .isTrue trivial

/-- The calls that a worker has to make after it has dequeued a frame. -/
def callsAfter (sock : Nat → Int) (base : Delivery) (calls : Nat → List SendMsg) :
    DeliveryAction → Nat → List SendMsg
  | .dequeue worker =>
      match base.workers worker with
      | .dequeued object =>
          Function.update calls worker (stompSendMessage (sock worker) object.frame none)
      | _ => calls
  | _ => calls

/-- Nothing of a new frame has been accepted. -/
def acceptedAfter (accepted : Nat → List UInt8) : DeliveryAction → Nat → List UInt8
  | .dequeue worker => Function.update accepted worker []
  | _ => accepted

/-- One step. `sock` gives the socket of each worker. The results of `send` are ignored. -/
def unicastStep (destination : Nat → List UInt8) (sock : Nat → Int) (s : Unicast) :
    UnicastAction → Option Unicast
  | .base action =>
      if s.MayReturn action then
        (deliveryStep destination s.base action).map fun base =>
          { base := base
            calls := callsAfter sock base s.calls action
            accepted := acceptedAfter s.accepted action
            enqueued := s.enqueued ++ enqueuedBy s.base action
            transfers := s.transfers ++ s.transferBy action }
      else none
  | .call worker outcome =>
      match s.base.workers worker, s.calls worker with
      | .dequeued _, call :: rest =>
          some { s with
            calls := Function.update s.calls worker rest
            accepted := Function.update s.accepted worker
              (s.accepted worker ++ call.msg.take (outcome.getD 0)) }
      | _, _ => none

end Newtmq
