/-
Module: Newtmq.Spec.SentIndex
Purpose: What the index of a queue is meant to say: `sent_index` points at or before the end of the
  data file, and `index_sent` counts the frames of the file up to one that has been sent. The
  conditions on the order of the steps under which the threads keep it so.
Trusted boundary: human-reviewed spec
Main exports: ofHash, totalSize, Delivery.Rested, SentIndexInside, FlushedBeforeStored, fileOrder,
  CountsSentPrefix, CountsInOrder
-/
import Mathlib.Algebra.Ring.Int.Defs
import Mathlib.Algebra.Ring.Nat
import Newtmq.Core.Delivery
import Newtmq.Proofs.QueueStore
import Mathlib.Algebra.Order.BigOperators.Group.List

namespace Newtmq

/-! ### Records of frames -/

/-- The frames recorded for the queue with this hash number. -/
def ofHash (hashnum : UInt64) (record : List (UInt64 × FrameObject)) : List FrameObject :=
  (record.filter fun entry => entry.1 = hashnum).map Prod.snd

@[simp] theorem ofHash_nil (hashnum : UInt64) : ofHash hashnum [] = [] := rfl

@[simp] theorem ofHash_append (hashnum : UInt64) (first second : List (UInt64 × FrameObject)) :
    ofHash hashnum (first ++ second) = ofHash hashnum first ++ ofHash hashnum second := by
  simp [ofHash]

@[simp] theorem ofHash_singleton (hashnum other : UInt64) (object : FrameObject) :
    ofHash hashnum [(other, object)] = if other = hashnum then [object] else [] := by
  by_cases same : other = hashnum <;> simp [ofHash, same]

theorem mem_ofHash_iff {hashnum : UInt64} {record : List (UInt64 × FrameObject)}
    {object : FrameObject} : object ∈ ofHash hashnum record ↔ (hashnum, object) ∈ record := by
  simp [ofHash]

theorem mem_ofHash {hashnum : UInt64} {record : List (UInt64 × FrameObject)} {object : FrameObject}
    (mem : object ∈ ofHash hashnum record) : (hashnum, object) ∈ record :=
  mem_ofHash_iff.mp mem

/-- The sum of the sizes of frames. -/
def totalSize (objects : List FrameObject) : Int :=
  (objects.map fun object => object.frame.size).sum

@[simp] theorem totalSize_nil : totalSize [] = 0 := rfl

@[simp] theorem totalSize_singleton (object : FrameObject) :
    totalSize [object] = object.frame.size := by
  simp [totalSize]

@[simp] theorem totalSize_append (first second : List FrameObject) :
    totalSize (first ++ second) = totalSize first + totalSize second := by
  simp [totalSize]

/-- The number of bytes that frames take in the data file. -/
def totalBytes (objects : List FrameObject) : Int :=
  (objects.map fun object => ((frameBytes object.frame).length : Int)).sum

@[simp] theorem totalBytes_nil : totalBytes [] = 0 := rfl

@[simp] theorem totalBytes_singleton (object : FrameObject) :
    totalBytes [object] = (frameBytes object.frame).length := by
  simp [totalBytes]

@[simp] theorem totalBytes_append (first second : List FrameObject) :
    totalBytes (first ++ second) = totalBytes first + totalBytes second := by
  simp [totalBytes]

/-- Frames that are among others are not longer together. -/
theorem totalSize_le_of_subperm {first second : List FrameObject} (among : first.Subperm second)
    (nonneg : ∀ object ∈ second, 0 ≤ object.frame.size) : totalSize first ≤ totalSize second := by
  obtain ⟨middle, perm, sublist⟩ := among
  have same : totalSize middle = totalSize first := (perm.map _).sum_eq
  rw [← same]
  apply (sublist.map _).sum_le_sum
  intro size mem
  obtain ⟨object, memObject, rfl⟩ := List.mem_map.mp mem
  exact nonneg object memObject

/-- The bytes of frames, one after the other. -/
def framesBytes (objects : List FrameObject) : List UInt8 :=
  objects.flatMap fun object => frameBytes object.frame

theorem framesBytes_append (first second : List FrameObject) :
    framesBytes (first ++ second) = framesBytes first ++ framesBytes second := by
  simp [framesBytes]

/-! ### The start -/

/-- The contents of the data file. -/
def PersistentManager.dataFile (pm : PersistentManager) (dirpath : List UInt8) : List UInt8 :=
  (pm.files dirpath).data

/-- The directory of a queue. -/
def queueDir (pm : PersistentManager) (qname : List UInt8) : List UInt8 :=
  pm.datadir ++ cstring "/" ++ cstr qname

/-- The state when the threads begin: `unpersist` has made a `queue_info` object for each directory,
with the stored index, and has enqueued the frames it has recovered; nothing else has happened. -/
structure Delivery.Rested (s : Delivery) : Prop where
  handler : s.handler = .idle
  workers : ∀ worker, s.workers worker = .idle
  records : s.taken = [] ∧ s.sent = [] ∧ s.counted = [] ∧ s.written = []
  queues : s.queues.WellFormed
  ids : (s.pm.qinfos.map QueueInfo.qid).Nodup
  named : ∀ qinfo ∈ s.pm.qinfos, ∃ qname, qinfo.qid = getHash qname ∧
    qinfo.dirpath = queueDir s.pm qname
  pending : ∀ qinfo ∈ s.pm.qinfos, qinfo.unpersistent = []
  stored : ∀ qinfo ∈ s.pm.qinfos, qinfo.indexSent = unpersistQueueInfo qinfo.dirpath s.pm
  known : ∀ hashnum, getQinfo hashnum s.pm = none → contents hashnum s.queues = []

/-! ### The index in the file -/

/-- The size of a frame is at most the number of bytes it takes in the data file. -/
def SizeFits (frame : Frame) : Prop :=
  0 ≤ frame.size ∧ frame.size ≤ (frameBytes frame).length

/-- The frames that have been recovered lie in the data files, after the stored index. -/
structure Delivery.FitsFiles (s : Delivery) : Prop where
  stored : ∀ dirpath, unpersistQueueInfo dirpath s.pm ≤ (s.pm.dataFile dirpath).length
  recovered : ∀ qinfo ∈ s.pm.qinfos,
    qinfo.indexSent + totalSize (contents qinfo.qid s.queues) ≤ (s.pm.dataFile qinfo.dirpath).length
  sizes : ∀ hashnum, ∀ object ∈ contents hashnum s.queues, 0 ≤ object.frame.size

/-- No `sent_index` file points beyond the data file of its queue. -/
def SentIndexInside (pm : PersistentManager) : Prop :=
  ∀ dirpath, unpersistQueueInfo dirpath pm ≤ (pm.dataFile dirpath).length

instance (frame : Frame) : Decidable (SizeFits frame) :=
  inferInstanceAs (Decidable (_ ∧ _))

/-- Frames are accepted only when their size is the number of bytes they take in the data file. -/
def AcceptsExactSizes : Delivery → DeliveryAction → Prop
  | _, .accept _ object => object.frame.size = (frameBytes object.frame).length
  | _, _ => True

instance : ∀ s action, Decidable (AcceptsExactSizes s action)
  | _, .accept _ object => inferInstanceAs (Decidable (object.frame.size = _))
  | _, .create | _, .link | _, .grow | _, .enqueue | _, .dequeue _ | _, .send _ | _, .count _
  | _, .enter | _, .storeIndex | _, .compare | _, .write => .isTrue trivial

/-- When the persistent worker is about to store an index, the frames counted in it have been written:
they are among those that were recovered or written since. -/
def FlushedAt (start s : Delivery) : FlusherPoint → Prop
  | .store place =>
      ∀ qinfo ∈ s.pm.qinfos[place]?, (ofHash qinfo.qid s.counted).Subperm
        (contents qinfo.qid start.queues ++ ofHash qinfo.qid s.written)
  | _ => True

instance (start s : Delivery) : ∀ point, Decidable (FlushedAt start s point)
  | .store place => inferInstanceAs (Decidable (∀ qinfo ∈ s.pm.qinfos[place]?, _))
  | .outside | .compare _ | .flush _ => .isTrue trivial

/-- Frames are accepted only when their size fits, and an index is stored only when the frames counted
in it have been written. -/
def FlushedBeforeStored (start s : Delivery) : DeliveryAction → Prop
  | .accept _ object => SizeFits object.frame
  | .storeIndex => FlushedAt start s s.flusher
  | _ => True

instance (start s : Delivery) : ∀ action, Decidable (FlushedBeforeStored start s action)
  | .accept _ object => inferInstanceAs (Decidable (SizeFits object.frame))
  | .storeIndex => inferInstanceAs (Decidable (FlushedAt start s s.flusher))
  | .create | .link | .grow | .enqueue | .dequeue _ | .send _ | .count _ | .enter | .compare
  | .write => .isTrue trivial

/-! ### The index in memory -/

/-- The frames of a queue in the order of its data file, from the stored index on: those recovered,
those written, and those that wait to be written. -/
def fileOrder (start s : Delivery) (qinfo : QueueInfo) : List FrameObject :=
  contents qinfo.qid start.queues ++ ofHash qinfo.qid s.written ++ qinfo.unpersistent

/-- Each `index_sent` is what was stored at the start and the total size of the first frames of the
file from there, all of which have been sent. -/
def CountsSentPrefix (start s : Delivery) : Prop :=
  ∀ qinfo ∈ s.pm.qinfos, ∃ n,
    qinfo.indexSent = unpersistQueueInfo qinfo.dirpath start.pm +
      totalSize ((fileOrder start s qinfo).take n) ∧
    ∀ object ∈ (fileOrder start s qinfo).take n, object ∈ s.sent

/-- A worker that has sent a frame has sent the first frame of those that were dequeued from its queue
and are not yet counted. -/
def SentFirst (s : Delivery) (hashnum : UInt64) : WorkerPoint → Prop
  | .sent object => ofHash hashnum s.counted ++ [object] <+: ofHash hashnum s.taken
  | _ => True

instance (s : Delivery) (hashnum : UInt64) : ∀ point, Decidable (SentFirst s hashnum point)
  | .sent object => inferInstanceAs (Decidable (_ ++ [object] <+: _))
  | .idle | .dequeued _ => .isTrue trivial

/-- A frame is counted only when the frames that were dequeued from its queue before it have been
counted. -/
def CountsInOrder (destination : Nat → List UInt8) (s : Delivery) : DeliveryAction → Prop
  | .count worker => SentFirst s (getHash (destination worker)) (s.workers worker)
  | _ => True

instance (destination : Nat → List UInt8) (s : Delivery) :
    ∀ action, Decidable (CountsInOrder destination s action)
  | .count worker => inferInstanceAs (Decidable (SentFirst s _ (s.workers worker)))
  | .accept _ _ | .create | .link | .grow | .enqueue | .dequeue _ | .send _ | .enter | .storeIndex
  | .compare | .write => .isTrue trivial

end Newtmq
