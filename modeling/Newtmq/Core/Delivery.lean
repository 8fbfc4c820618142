/-
Module: Newtmq.Core.Delivery
Purpose: The threads that share the queues and the persistent manager: the management worker, which
  persists a frame and then enqueues it, the sending workers, which dequeue a frame, send it and count
  it in `index_sent`, and the persistent worker. A step is what a thread does between two places where
  another one can come in; what the disk holds after a step is what a crash leaves.
Trusted boundary: human-reviewed spec
Main exports: HandlerPoint, WorkerPoint, FlusherPoint, Delivery, DeliveryAction, deliveryStep, linkedBy,
  enqueuedBy
-/
import Newtmq.Core.Persistent
import Newtmq.Core.Queue

namespace Newtmq

/-- How far `handler_stomp_send` is with a frame that it has accepted for a queue. `place` is the
`queue_info` object that `create_qinfo` has returned. -/
inductive HandlerPoint where
  | idle
  | accepted (qname : List UInt8) (object : FrameObject)
  | created (qname : List UInt8) (object : FrameObject) (place : Nat)
  | linked (qname : List UInt8) (object : FrameObject) (place : Nat)
  | persisted (qname : List UInt8) (object : FrameObject)
deriving DecidableEq, Repr

/-- How far a sending worker is with a frame. -/
inductive WorkerPoint where
  | idle
  | dequeued (object : FrameObject)
  | sent (object : FrameObject)
deriving DecidableEq, Repr

/-- Where the persistent worker is: outside the loop over the list, or at an object of the list,
about to store its index, to compare its indexes, or to write its pending frames. -/
inductive FlusherPoint where
  | outside
  | store (place : Nat)
  | compare (place : Nat)
  | flush (place : Nat)
deriving DecidableEq, Repr

/-- The shared state, the threads, and records of what has happened, in order: the frames dequeued,
sent, counted in `index_sent` and written to a data file, with the hash number of the queue. -/
structure Delivery where
  pm : PersistentManager
  queues : QueueStore FrameObject
  handler : HandlerPoint
  workers : Nat → WorkerPoint
  flusher : FlusherPoint
  taken : List (UInt64 × FrameObject)
  sent : List FrameObject
  counted : List (UInt64 × FrameObject)
  written : List (UInt64 × FrameObject)

/-- A step: of the management worker, of a sending worker, or of the persistent worker. -/
inductive DeliveryAction where
  | accept (qname : List UInt8) (object : FrameObject)
  | create
  | link
  | grow
  | enqueue
  | dequeue (worker : Nat)
  | send (worker : Nat)
  | count (worker : Nat)
  | enter
  | storeIndex
  | compare
  | write
deriving DecidableEq, Repr

/-- `add_frame_into_qinfo`. -/
def addFrameIntoQinfo (place : Nat) (object : FrameObject) (pm : PersistentManager) :
    PersistentManager :=
  { pm with
    qinfos := pm.qinfos.modify place fun qinfo =>
      { qinfo with unpersistent := qinfo.unpersistent ++ [object] } }

/-- The last assignment of `persist_frame`. -/
def growIndexHead (place : Nat) (object : FrameObject) (pm : PersistentManager) :
    PersistentManager :=
  { pm with
    qinfos := pm.qinfos.modify place fun qinfo =>
      { qinfo with indexHead := qinfo.indexHead + object.frame.size } }

/-- `persist_frame` is made of the steps of the management worker. -/
theorem persistFrame_eq (object : FrameObject) (qname : List UInt8) (pm : PersistentManager) :
    persistFrame object qname pm =
      growIndexHead (createQinfo qname pm).1 object
        (addFrameIntoQinfo (createQinfo qname pm).1 object (createQinfo qname pm).2) := by
  simp [persistFrame, growIndexHead, addFrameIntoQinfo, List.modify_modify_eq, Function.comp_def]

/-- The next object of the list. -/
def FlusherPoint.next (place : Nat) (pm : PersistentManager) : FlusherPoint :=
  if place + 1 < pm.qinfos.length then .store (place + 1) else .outside

def Delivery.setWorker (s : Delivery) (worker : Nat) (point : WorkerPoint) : Delivery :=
  { s with workers := Function.update s.workers worker point }

/-- One step, when the thread is at it and no mutex holds it back: the persistent worker holds
`m_qinfo` inside its loop and `m_unpersistent` while it writes. `destination` gives the destination
of each sending worker. -/
def deliveryStep (destination : Nat → List UInt8) (s : Delivery) :
    DeliveryAction → Option Delivery
  | .accept qname object =>
      match s.handler with
      | .idle => some { s with handler := .accepted qname object }
      | _ => none
  | .create =>
      match s.handler with
      | .accepted qname object =>
          if (getQinfo (getHash qname) s.pm).isSome ∨ s.flusher = .outside then
            let (place, pm) := createQinfo qname s.pm
            some { s with pm := pm, handler := .created qname object place }
          else none
      | _ => none
  | .link =>
      match s.handler with
      | .created qname object place =>
          if s.flusher = .flush place then none
          else
            some { s with
              pm := addFrameIntoQinfo place object s.pm, handler := .linked qname object place }
      | _ => none
  | .grow =>
      match s.handler with
      | .linked qname object place =>
          some { s with pm := growIndexHead place object s.pm, handler := .persisted qname object }
      | _ => none
  | .enqueue =>
      match s.handler with
      | .persisted qname object =>
          some { s with queues := (enqueue (some object) qname s.queues).2, handler := .idle }
      | _ => none
  | .dequeue worker =>
      match s.workers worker with
      | .idle =>
          match dequeue (destination worker) s.queues with
          | (none, queues) => some { s with queues := queues }
          | (some object, queues) =>
              some ({ s with
                queues := queues
                taken := s.taken ++ [(getHash (destination worker), object)] }.setWorker worker
                  (.dequeued object))
      | _ => none
  | .send worker =>
      match s.workers worker with
      | .dequeued object =>
          some ({ s with sent := s.sent ++ [object] }.setWorker worker (.sent object))
      | _ => none
  | .count worker =>
      match s.workers worker with
      | .sent object =>
          match updateIndexSent (destination worker) object s.pm with
          | (.success, pm) =>
              some ({ s with
                pm := pm
                counted := s.counted ++ [(getHash (destination worker), object)] }.setWorker worker
                  .idle)
          | (.error, pm) => some ({ s with pm := pm }.setWorker worker .idle)
      | _ => none
  | .enter =>
      match s.flusher with
      | .outside => if s.pm.qinfos = [] then none else some { s with flusher := .store 0 }
      | _ => none
  | .storeIndex =>
      match s.flusher with
      | .store place =>
          (s.pm.qinfos[place]?).map fun qinfo =>
            { s with pm := persistQueueInfo qinfo s.pm, flusher := .compare place }
      | _ => none
  | .compare =>
      match s.flusher with
      | .compare place =>
          (s.pm.qinfos[place]?).map fun qinfo =>
            { s with
              flusher :=
                if qinfo.indexPersistent < qinfo.indexHead then .flush place
                else FlusherPoint.next place s.pm }
      | _ => none
  | .write =>
      match s.flusher with
      | .flush place =>
          (s.pm.qinfos[place]?).map fun qinfo =>
            match qinfo.unpersistent with
            | [] => { s with flusher := FlusherPoint.next place s.pm }
            | object :: _ =>
                let (after, pm) := persistOne object qinfo s.pm
                { s with
                  pm := { pm with qinfos := s.pm.qinfos.set place after }
                  written := s.written ++ [(qinfo.qid, object)] }
      | _ => none

/-- The record of the link of a frame in `h_unpersistent`. -/
def linkedBy (s : Delivery) : DeliveryAction → List (UInt64 × FrameObject)
  | .link =>
      match s.handler with
      | .created qname object _ => [(getHash qname, object)]
      | _ => []
  | _ => []

/-- The record of an `enqueue`. -/
def enqueuedBy (s : Delivery) : DeliveryAction → List (UInt64 × FrameObject)
  | .enqueue =>
      match s.handler with
      | .persisted qname object => [(getHash qname, object)]
      | _ => []
  | _ => []

/-- A process whose data directory is new. -/
def Delivery.init (datadir : List UInt8) : Delivery :=
  { pm := { datadir := datadir, qinfos := [], disk := fun _ => none }
    queues := .empty
    handler := .idle
    workers := fun _ => .idle
    flusher := .outside
    taken := []
    sent := []
    counted := []
    written := [] }

end Newtmq
