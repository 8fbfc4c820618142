/-
Module: Newtmq.Spec.QueueBox
Purpose: What a listing of the queues is to show after some calls: one queue for each hash number that was
  used, with the name it was first used under, the data that waits, and the number of calls of `enqueue`.
Trusted boundary: human-reviewed spec
Main exports: storeAfterCall, storeAfter, QueueCall.used, usedNames, waiting, enqueued, summary
-/
import Newtmq.Core.QueueBox
import Newtmq.Proofs.QueueMap

namespace Newtmq

universe u

variable {α : Type u}

/-- The store after a call. -/
def storeAfterCall (store : QueueStore α) : QueueCall α → QueueStore α
  | .enqueue data qname => (enqueue data qname store).2
  | .dequeue qname => (dequeue qname store).2

/-- The store after some calls on an initialized queuebox. -/
def storeAfter (calls : List (QueueCall α)) : QueueStore α :=
  calls.foldl storeAfterCall .empty

/-- The name that a call uses. An `enqueue` of `NULL` uses none. -/
def QueueCall.used : QueueCall α → Option (List UInt8)
  | .enqueue none _ => none
  | .enqueue (some _) qname => some qname
  | .dequeue qname => some qname

/-- The names in use after a call: a name whose hash number is in use already is not added. -/
def QueueCall.addName (names : List (List UInt8)) (call : QueueCall α) : List (List UInt8) :=
  match call.used with
  | some qname => if getHash qname ∈ names.map getHash then names else names ++ [qname]
  | none => names

/-- The names with different hash numbers, in the order of their first use. -/
def usedNames (calls : List (QueueCall α)) : List (List UInt8) :=
  calls.foldl QueueCall.addName []

/-- The data that waits under a hash number after a call. -/
def QueueCall.await (hashnum : UInt64) (items : List α) : QueueCall α → List α
  | .enqueue (some data) qname => if getHash qname = hashnum then items ++ [data] else items
  | .enqueue none _ => items
  | .dequeue qname => if getHash qname = hashnum then items.tail else items

/-- The data that is enqueued under a hash number and not yet dequeued, the oldest first. -/
def waiting (hashnum : UInt64) (calls : List (QueueCall α)) : List α :=
  calls.foldl (QueueCall.await hashnum) []

/-- The call enqueues data under a hash number. -/
def QueueCall.enqueues (hashnum : UInt64) : QueueCall α → Bool
  | .enqueue (some _) qname => getHash qname = hashnum
  | _ => false

/-- The number of calls that enqueue data under a hash number. -/
def enqueued (hashnum : UInt64) (calls : List (QueueCall α)) : Nat :=
  calls.countP (QueueCall.enqueues hashnum)

/-- What a queue shows: the counter is an `int`. -/
def summary (calls : List (QueueCall α)) (qname : List UInt8) : Queue α where
  hashnum := getHash qname
  name := (cstr qname).take QNAME_LENGTH
  entries := waiting (getHash qname) calls
  count := wrap32 (enqueued (getHash qname) calls)

end Newtmq
