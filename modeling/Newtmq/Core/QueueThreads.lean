/-
Module: Newtmq.Core.QueueThreads
Purpose: Threads that call `enqueue` and `dequeue` at the same time. A step is one critical section:
  the creation of the list or the lookup or the insertion under `queuebox_lock`, or the access to the
  entries under the mutex of the queue object.
Trusted boundary: human-reviewed spec
Main exports: QueueOp, ThreadState, QueueThreads, ThreadAction, queueStep
-/
import Newtmq.Core.Queue

namespace Newtmq

universe u

variable {α : Type u}

/-- The call a thread is in. An `enqueue` of `NULL` returns before its first critical section and is
left out. -/
inductive QueueOp (α : Type u) where
  | enqueue (data : α) (qname : List UInt8)
  | dequeue (qname : List UInt8)
deriving DecidableEq, Repr

def QueueOp.qname : QueueOp α → List UInt8
  | .enqueue _ qname => qname
  | .dequeue qname => qname

/-- How far the call of a thread is: which critical section comes next, and the object it has got
from `get_queue`. -/
inductive ThreadState (α : Type u) where
  | idle
  | called (op : QueueOp α)
  | ready (op : QueueOp α)
  | missed (op : QueueOp α)
  | found (op : QueueOp α) (address : Nat)
deriving DecidableEq, Repr

/-- The queuebox, the threads, and two records of what has happened, in order: the data of the
`enqueue` calls that have returned, and the data that `dequeue` calls have returned. Both are kept
with the name of the call. -/
structure QueueThreads (α : Type u) where
  store : QueueStore α
  threads : Nat → ThreadState α
  enqueued : List (List UInt8 × α)
  returned : List (List UInt8 × α)

def QueueThreads.start : QueueThreads α := ⟨.empty, fun _ => .idle, [], []⟩

/-- The thread that takes the next step, and for `call` what it calls. -/
inductive ThreadAction (α : Type u) where
  | call (thread : Nat) (op : QueueOp α)
  | create (thread : Nat)
  | lookup (thread : Nat)
  | insert (thread : Nat)
  | access (thread : Nat)
deriving DecidableEq, Repr

def QueueThreads.setThread (s : QueueThreads α) (thread : Nat) (state : ThreadState α) :
    QueueThreads α :=
  { s with threads := Function.update s.threads thread state }

/-- The last critical section of a call, on the object at `address`. -/
def QueueThreads.accessEntries (s : QueueThreads α) (op : QueueOp α) (address : Nat) :
    QueueThreads α :=
  match op with
  | .enqueue data qname =>
      { s with
        store := appendEntry address data s.store
        enqueued := s.enqueued ++ [(qname, data)] }
  | .dequeue qname =>
      let (data, store) := popEntry address s.store
      { s with
        store := store
        returned := s.returned ++ data.toList.map fun data => (qname, data) }

/-- One step. It can be taken only when the thread is at the critical section. -/
def queueStep (s : QueueThreads α) : ThreadAction α → Option (QueueThreads α)
  | .call thread op =>
      match s.threads thread with
      | .idle => some (s.setThread thread (.called op))
      | _ => none
  | .create thread =>
      match s.threads thread with
      | .called op =>
          some ({ s with store := initBucket op.qname s.store }.setThread thread (.ready op))
      | _ => none
  | .lookup thread =>
      match s.threads thread with
      | .ready op =>
          match Newtmq.lookup (getHash op.qname) s.store with
          | some address => some (s.setThread thread (.found op address))
          | none => some (s.setThread thread (.missed op))
      | _ => none
  | .insert thread =>
      match s.threads thread with
      | .missed op =>
          let (address, store) := insertQueue op.qname s.store
          some ({ s with store := store }.setThread thread (.found op address))
      | _ => none
  | .access thread =>
      match s.threads thread with
      | .found op address => some ((s.accessEntries op address).setThread thread .idle)
      | _ => none

end Newtmq
