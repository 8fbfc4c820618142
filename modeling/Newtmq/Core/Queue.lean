/-
Module: Newtmq.Core.Queue
Purpose: `queue.c`. The queue objects and the 512 lists of the queuebox that link them, the steps of
  `get_queue`, `enqueue` and `dequeue` that run under one lock each, and the three functions made of
  these steps.
Trusted boundary: human-reviewed spec
Main exports: Queue, QueueStore, lookup, insertQueue, getQueue, appendEntry, popEntry, enqueue, dequeue
-/
import Newtmq.Core.Common

namespace Newtmq

universe u

variable {α : Type u}

/-- `QB_SIZE`. -/
def QB_SIZE : Nat := 512

/-- `QNAME_LENGTH`. -/
def QNAME_LENGTH : Nat := 256

/-- `struct queue`. The entries are the `data` pointers of `h_entry` in list order. -/
structure Queue (α : Type u) where
  hashnum : UInt64
  name : List UInt8
  entries : List α
  count : Int
deriving DecidableEq, Repr

/-- `queuebox`, each of whose elements is `NULL` or the head of a list, with the queue objects. A
queue object is addressed by its place in `objects`, and a list holds addresses from its head on. -/
structure QueueStore (α : Type u) where
  queuebox : Fin QB_SIZE → Option (List Nat)
  objects : List (Queue α)

/-- `initialize_queuebox`. -/
def QueueStore.empty : QueueStore α := ⟨fun _ => none, []⟩

/-- The `index` of `get_queue`. -/
def bucketIndex (hashnum : UInt64) : Fin QB_SIZE :=
  ⟨hashnum.toNat % QB_SIZE, Nat.mod_lt _ (by decide)⟩

/-- The addresses linked at an index of the queuebox. -/
def QueueStore.bucket (store : QueueStore α) (index : Fin QB_SIZE) : List Nat :=
  (store.queuebox index).getD []

/-- The queue object at an address has this hash number. -/
def QueueStore.hasHash (store : QueueStore α) (hashnum : UInt64) (address : Nat) : Bool :=
  match store.objects[address]? with
  | some queue => queue.hashnum = hashnum
  | none => false

/-- The first critical section of `get_queue`: create the list at the index. -/
def initBucket (qname : List UInt8) (store : QueueStore α) : QueueStore α :=
  let index := bucketIndex (getHash qname)
  match store.queuebox index with
  | none => { store with queuebox := Function.update store.queuebox index (some []) }
  | some _ => store

/-- The second critical section of `get_queue`: the loop keeps the last object that matches. -/
def lookup (hashnum : UInt64) (store : QueueStore α) : Option Nat :=
  (store.bucket (bucketIndex hashnum)).foldl
    (fun queue address => if store.hasHash hashnum address then some address else queue) none

/-- The third critical section of `get_queue`, with the `create_queue` before it: a new object is
linked at the head of its list. -/
def insertQueue (qname : List UInt8) (store : QueueStore α) : Nat × QueueStore α :=
  let hashnum := getHash qname
  let index := bucketIndex hashnum
  let address := store.objects.length
  (address,
    { queuebox := Function.update store.queuebox index (some (address :: store.bucket index))
      objects := store.objects ++
        [{ hashnum := hashnum
           name := (cstr qname).take QNAME_LENGTH
           entries := []
           count := 0 }] })

/-- `get_queue`, when `malloc` succeeds. -/
def getQueue (qname : List UInt8) (store : QueueStore α) : Nat × QueueStore α :=
  let store := initBucket qname store
  match lookup (getHash qname) store with
  | some address => (address, store)
  | none => insertQueue qname store

/-- The critical section of `enqueue`. -/
def appendEntry (address : Nat) (data : α) (store : QueueStore α) : QueueStore α :=
  { store with
    objects := store.objects.modify address fun q =>
      { q with entries := q.entries ++ [data], count := wrap32 (q.count + 1) } }

/-- The critical section of `dequeue`. -/
def popEntry (address : Nat) (store : QueueStore α) : Option α × QueueStore α :=
  ((store.objects[address]?).bind fun q => q.entries.head?,
    { store with
      objects := store.objects.modify address fun q => { q with entries := q.entries.tail } })

/-- `enqueue`, when `malloc` succeeds. The data is absent when the pointer is `NULL`. -/
def enqueue (data : Option α) (qname : List UInt8) (store : QueueStore α) : Ret × QueueStore α :=
  match data with
  | none => (.error, store)
  | some data =>
      let (address, store) := getQueue qname store
      (.success, appendEntry address data store)

/-- `dequeue`, when `malloc` succeeds. -/
def dequeue (qname : List UInt8) (store : QueueStore α) : Option α × QueueStore α :=
  let (address, store) := getQueue qname store
  popEntry address store

end Newtmq
