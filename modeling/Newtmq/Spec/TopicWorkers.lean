/-
Module: Newtmq.Spec.TopicWorkers
Purpose: A topic with subscribers has a thread that serves it.
Trusted boundary: human-reviewed spec
Main exports: ServedBy, Served, TopicsServed, LinksToServed
-/
import Newtmq.Core.TopicWorkers

namespace Newtmq

/-- The thread `n` runs `multicast_worker` for the group at `place`, and has not left its loop. -/
def ServedBy (s : TopicWorkers) (place n : Nat) : Prop :=
  s.manager.workers[n]? = some (.multicast place) ∧ (s.base.senders n).hasEnded = false

/-- Some thread serves the group at `place`. -/
def Served (s : TopicWorkers) (place : Nat) : Prop :=
  ∃ n < s.manager.workers.length, ServedBy s place n

/-- While `register_multicast_worker` is not executing, every group with clients is served. -/
def TopicsServed (s : TopicWorkers) : Prop :=
  s.registering = .idle → ∀ place group, s.manager.groups[place]? = some group →
    group.clients ≠ [] → Served s place

instance (s : TopicWorkers) (place n : Nat) : Decidable (ServedBy s place n) :=
  inferInstanceAs (Decidable (_ ∧ _))

instance (s : TopicWorkers) (place : Nat) : Decidable (Served s place) :=
  inferInstanceAs (Decidable (∃ n < _, _))

/-- A client is linked in a group only while a thread still serves it. -/
def LinksToServed (s : TopicWorkers) : TopicAction → Prop
  | .link =>
      match s.registering with
      | .linking _ place => Served s place
      | _ => True
  | _ => True

end Newtmq
