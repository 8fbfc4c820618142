/-
Module: Newtmq.Spec.SubscriptionHeaders
Purpose: When a `MESSAGE` frame names the subscription it is for, and when the frame that it is made of
  does.
Trusted boundary: human-reviewed spec
Main exports: splitLines, headerLines, NamesId, Frame.ownHeaders, NamesSubscriptions, SentWithIds
-/
import Newtmq.Spec.Encoding
import Newtmq.Core.SubscriptionHeaders

namespace Newtmq

open WireFrame (encodeLines)

/-- The lines of some bytes. What comes after the last LF is no line. -/
def splitLines : List UInt8 → List (List UInt8)
  | [] => []
  | c :: rest =>
      if c = LF then [] :: splitLines rest
      else
        match splitLines rest with
        | [] => []
        | line :: lines => (c :: line) :: lines

/-- The header lines of a frame: those after the command and before the first empty one. -/
def headerLines (bytes : List UInt8) : List (List UInt8) :=
  (splitLines bytes).tail.takeWhile (· ≠ [])

/-- One of the lines is a subscription header with this value, with or without a space before it. -/
def NamesId (id : List UInt8) (lines : List (List UInt8)) : Prop :=
  cstring "subscription:" ++ id ∈ lines ∨ cstring "subscription: " ++ id ∈ lines

instance (id : List UInt8) (lines : List (List UInt8)) : Decidable (NamesId id lines) :=
  inferInstanceAs (Decidable (_ ∨ _))

/-- The header lines that a frame brings with it: those that are stored, and its message id. -/
def Frame.ownHeaders (frame : Frame) : List (List UInt8) :=
  (splitLines (encodeLines (entryLines frame.hAttrs ++ [cstring "message-id: " ++ frame.id]))).takeWhile
    (· ≠ [])

/-- The id of the subscription with a number. -/
def Subscriptions.idOf (s : Subscriptions) (number : Option Nat) : Option (List UInt8) :=
  number.bind fun k => s.handled[k]?.bind Subscription.id

/-- Every `MESSAGE` frame that a step sends for a subscription with an id names the id. -/
def NamesSubscriptions (s : Subscriptions) (action : SubscriptionAction) : Prop :=
  ∀ message ∈ s.messages action, ∀ id ∈ s.idOf message.subscription,
    NamesId id (headerLines (wireBytes message.calls))

instance (s : Subscriptions) (action : SubscriptionAction) : Decidable (NamesSubscriptions s action) :=
  inferInstanceAs (Decidable (∀ message ∈ s.messages action, ∀ id ∈ s.idOf message.subscription, _))

/-- The frame at the head of the queue, when a thread takes it, names the ids of the subscriptions of its
valid clients itself. -/
def SentWithIds (s : Subscriptions) : SubscriptionAction → Prop
  | .handle _ => True
  | .serve n valid => ∀ worker destination, s.serving n = some (worker, destination) →
      ∀ object ∈ (dequeue destination s.server.queues).1,
        ∀ recipient ∈ s.recipients n valid worker, ∀ id ∈ s.idOf recipient.1,
          NamesId id object.frame.ownHeaders

end Newtmq
