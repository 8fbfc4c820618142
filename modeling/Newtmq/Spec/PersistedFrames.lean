/-
Module: Newtmq.Spec.PersistedFrames
Purpose: What becomes of the frames that are handed to `persist_frame`: while the server runs, the data
  file and the pending frames are those that were enqueued; when it is stopped, the files are to hold
  all of them and the index.
Trusted boundary: human-reviewed spec
Main exports: FileIsQueue, persistedBy, LosesNothing, NothingWaits
-/
import Newtmq.Core.CleanStop
import Newtmq.Spec.SentIndex

namespace Newtmq

/-- When the management worker is between two frames, the frames written to a data file and those that
wait to be written are the frames enqueued on the queue with the same hash number. -/
def FileIsQueue (s : Delivery) (enqueued : List (UInt64 × FrameObject)) : Prop :=
  s.handler = .idle → ∀ qinfo ∈ s.pm.qinfos,
    ofHash qinfo.qid s.written ++ qinfo.unpersistent = ofHash qinfo.qid enqueued

/-- The record of the frames passed to `persist_frame`. -/
def persistedBy (s : Delivery) : DeliveryAction → List (UInt64 × FrameObject)
  | .create =>
      match s.handler with
      | .accepted qname object => [(getHash qname, object)]
      | _ => []
  | _ => []

/-- A frame that `persist_frame` has not yet linked. -/
def HandlerPoint.unlinked (hashnum : UInt64) : HandlerPoint → List FrameObject
  | .created qname object _ => ofHash hashnum [(getHash qname, object)]
  | _ => []

/-- The frames of a queue that were passed to `persist_frame` and are not written. -/
def Delivery.waiting (s : Delivery) (qinfo : QueueInfo) : List FrameObject :=
  qinfo.unpersistent ++ s.handler.unlinked qinfo.qid

/-- The files that are left when a run from `start` is stopped in the state `s`: each data file has
grown by the frames passed to `persist_frame` for the queue, in order, and each `sent_index` file holds
the index. -/
def LosesNothing (start s : Delivery) (persisted : List (UInt64 × FrameObject))
    (left : PersistentManager) : Prop :=
  ∀ qinfo ∈ s.pm.qinfos,
    left.dataFile qinfo.dirpath =
        start.pm.dataFile qinfo.dirpath ++ framesBytes (ofHash qinfo.qid persisted) ∧
      (left.files qinfo.dirpath).sentIndex = some qinfo.indexSent

/-- No frame waits, and each `sent_index` file is up to date. -/
def NothingWaits (s : Delivery) : Prop :=
  ∀ qinfo ∈ s.pm.qinfos, s.waiting qinfo = [] ∧
    (s.pm.files qinfo.dirpath).sentIndex = some qinfo.indexSent

instance (s : Delivery) : Decidable (NothingWaits s) :=
  inferInstanceAs (Decidable (∀ qinfo ∈ s.pm.qinfos, _ ∧ _))

end Newtmq
