/-
Module: Newtmq.Spec.ConnectionOrder
Purpose: The order in which the frames of one connection are to come into a queue: the order in which the
  connection has completed them.
Trusted boundary: human-reviewed spec
Main exports: Frame.SendsTo, Publishing.completedBy, Publishing.handledOf, Publishing.enqueuedOn,
  OrderPreserved
-/
import Newtmq.Core.Connections
import Newtmq.Core.Publishing

namespace Newtmq

/-- `handler_stomp_send` accepts the header. -/
def Frame.headerAccepted (frame : Frame) : Bool :=
  match frame.cinfo with
  | some cinfoId => (sendAttrinfo cinfoId frame).1 = .success
  | none => false

/-- A `SEND` frame with this destination, without a transaction, whose header is accepted. -/
def Frame.SendsTo (qname : List UInt8) (frame : Frame) : Prop :=
  (cstring "SEND").isPrefixOf frame.name = true ∧ frame.headerAccepted = true ∧
    frame.destination = some qname ∧ headerValue transactionName frame.hAttrs = none

instance (qname : List UInt8) (frame : Frame) : Decidable (frame.SendsTo qname) :=
  inferInstanceAs (Decidable (_ ∧ _))

/-- The connection that has completed the frame at an address. -/
def Publishing.connectionOf (s : Publishing) (address : Nat) : Option Nat :=
  (s.completed.find? fun entry => entry.2.address = address).map Prod.fst

/-- The frames that a connection has completed, in order. -/
def Publishing.completedBy (s : Publishing) (connection : Nat) : List FrameObject :=
  (s.completed.filter fun entry => entry.1 = connection).map Prod.snd

/-- The frames of a connection that were handled, in order. -/
def Publishing.handledOf (s : Publishing) (connection : Nat) : List FrameObject :=
  s.handled.filter fun object => s.connectionOf object.address = some connection

/-- The addresses of the frames of a connection that were enqueued under a name, in order. -/
def Publishing.enqueuedOn (s : Publishing) (connection : Nat) (qname : List UInt8) : List Nat :=
  (s.server.enqueued.filter fun entry =>
    entry.1 = qname ∧ s.connectionOf entry.2 = some connection).map Prod.snd

/-- The frames of a connection that were enqueued under a name are those of its handled frames that are
sent to this name, each once, and its frames were handled in the order in which it completed them. -/
def OrderPreserved (s : Publishing) : Prop :=
  ∀ connection qname,
    s.enqueuedOn connection qname =
        ((s.handledOf connection).filter fun object => object.frame.SendsTo qname).map
          FrameObject.address ∧
      s.handledOf connection <+: s.completedBy connection

/-- A server that has enqueued no frame since it was started, and has no frame with a callback. -/
structure Server.Idle (server : Server) : Prop where
  enqueued : server.enqueued = []
  transactions : ∀ transaction ∈ server.transactions.list, ∀ object ∈ transaction.frames,
    object.frame.transactionCallback = none

end Newtmq
