/-
Module: Newtmq.Core.Restarts
Purpose: The processes that serve one data directory, one after the other: each begins with `unpersist`
  on the files that the one before has left, and then its threads take their steps.
Trusted boundary: human-reviewed spec
Main exports: QueueStore.allocated, Startup.begin, LifeAction, lifeStep
-/
import Newtmq.Core.Delivery
import Newtmq.Core.Startup

namespace Newtmq

/-- The frames in the queues as objects; `malloc` gives the address of the frame at a place of a
queue. -/
def QueueStore.allocated (malloc : Nat → Nat → Nat) (store : QueueStore Frame) :
    QueueStore FrameObject :=
  { queuebox := store.queuebox
    objects := store.objects.mapIdx fun number queue =>
      { hashnum := queue.hashnum
        name := queue.name
        entries := queue.entries.mapIdx fun place frame => ⟨malloc number place, frame⟩
        count := queue.count } }

/-- `daemon_start`, after `unpersist`: the threads begin. -/
def Startup.begin (malloc : Nat → Nat → Nat) (s : Startup) : Delivery :=
  { pm := s.pm
    queues := s.queues.allocated malloc
    handler := .idle
    workers := fun _ => .idle
    flusher := .outside
    taken := []
    sent := []
    counted := []
    written := [] }

/-- A step of a thread, or the end of the process, at whatever point it is, and the start of the next
one on the files that are found then. -/
inductive LifeAction where
  | thread (action : DeliveryAction)
  | restart (env : StartupEnv) (disk : List UInt8 → Option QueueFiles) (malloc : Nat → Nat → Nat)

def lifeStep (destination : Nat → List UInt8) (s : Delivery) : LifeAction → Option Delivery
  | .thread action => deliveryStep destination s action
  | .restart env disk malloc => (unpersist env { s.pm with disk := disk }).map (Startup.begin malloc)

end Newtmq
