/-
Module: Newtmq.Spec.Subscriptions
Purpose: When a subscription is served, and what it means that an `UNSUBSCRIBE` frame stops it.
Trusted boundary: human-reviewed spec
Main exports: Subscriptions.served, Subscriptions.Serves, Subscriptions.sentFor, Unsubscribes,
  StopsAlone
-/
import Newtmq.Core.Subscriptions

namespace Newtmq

/-- The numbers of the subscriptions to which a thread sends the frames that it dequeues. -/
def Subscriptions.served (s : Subscriptions) (n : Nat) : Worker → List (Option Nat)
  | .reply _ _ | .unicast _ _ => [s.threads[n]?.join]
  | .multicast group => s.clients group

/-- A running thread serves the subscription `k`. -/
def Subscriptions.Serves (s : Subscriptions) (k : Nat) : Prop :=
  ∃ n worker, s.server.workers.workers[n]? = some worker ∧ s.ended n = false ∧
    n ∉ s.server.cancelled ∧ some k ∈ s.served n worker

/-- The `MESSAGE` frames that were sent for the subscription `k`. -/
def Subscriptions.sentFor (s : Subscriptions) (k : Nat) : List (Nat × Nat) :=
  s.sent.filter fun entry => entry.1 = k

/-- The frame is an `UNSUBSCRIBE` of the client of a subscription, with the id of the subscription. -/
def Unsubscribes (frame : Frame) (subscription : Subscription) : Prop :=
  (cstring "UNSUBSCRIBE").isPrefixOf frame.name = true ∧ frame.sock = subscription.sock ∧
    frame.cinfo = subscription.cinfo ∧ headerValue idName frame.hAttrs = subscription.id ∧
    subscription.id ≠ none

/-- Between `s` and `next` the subscription `k` has been stopped, and nothing else: whatever follows
sends no `MESSAGE` for `k`, and the frames that wait, the other subscriptions and what was sent for them
are as they were. -/
structure StopsAlone (env : ServerEnv) (s next : Subscriptions) (k : Nat) : Prop where
  silent : ∀ later, Transition.Reaches (subscriptionStep env) Transition.Always next later →
    later.sentFor k = next.sentFor k
  queues : next.server.queues = s.server.queues
  others : ∀ j, j ≠ k → (next.Serves j ↔ s.Serves j) ∧ next.sentFor j = s.sentFor j

end Newtmq
