/-
Module: Newtmq.Core.QueueBox
Purpose: The functions of `queue.c` that go through the whole queuebox: `get_queuelist`, which lists the
  queue objects, and `cleanup_queuebox`, which frees them with their entries.
Trusted boundary: human-reviewed spec
Main exports: getQueuelist, QueueStore.entriesAt, Cleanup, clearQueue, cleanupIndex, cleanupQueuebox
-/
import Mathlib.Data.List.FinRange
import Newtmq.Core.Queue

namespace Newtmq

universe u

variable {α : Type u}

/-- `get_queuelist`, when `malloc` succeeds: the addresses of the queue objects, in the order in which the
indices are gone through and the lists link them. The function returns their number. -/
def getQueuelist (store : QueueStore α) : List Nat :=
  (List.finRange QB_SIZE).flatMap store.bucket

/-- The data of the entries of the queue object at an address. -/
def QueueStore.entriesAt (store : QueueStore α) (address : Nat) : List α :=
  ((store.objects[address]?).map Queue.entries).getD []

/-- The queues while they are freed, with two records: the addresses of the queue objects given to `free`,
and the data of the entries given to `free`. -/
structure Cleanup (α : Type u) where
  store : QueueStore α
  queues : List Nat
  entries : List α

/-- `clear_queue` of a queue object in the list at an index. -/
def clearQueue (index : Fin QB_SIZE) (s : Cleanup α) (address : Nat) : Cleanup α :=
  { store :=
      { queuebox := Function.update s.store.queuebox index
          ((s.store.queuebox index).map fun addresses => addresses.erase address)
        objects := s.store.objects.modify address fun queue => { queue with entries := [] } }
    queues := s.queues ++ [address]
    entries := s.entries ++ s.store.entriesAt address }

/-- The body of the loop of `cleanup_queuebox`. The inner loop looks for the next object before it clears
one, so it goes through the list as it was. -/
def cleanupIndex (s : Cleanup α) (index : Fin QB_SIZE) : Cleanup α :=
  (s.store.bucket index).foldl (clearQueue index) s

/-- `cleanup_queuebox`. -/
def cleanupQueuebox (store : QueueStore α) : Cleanup α :=
  (List.finRange QB_SIZE).foldl cleanupIndex ⟨store, [], []⟩

end Newtmq
