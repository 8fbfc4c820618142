/-
Module: Newtmq.Proofs.SentIndexFile
Purpose: The stored index against the length of the data file. In every run, what is counted exceeds
  what is written by no more than the frames that are counted and not yet written; so an index that
  is stored when there are none of these lies inside the file.
Trusted boundary: none
Main exports: Balanced, IndexInv, indexInv_step, sentIndex_inside
-/
import Newtmq.Proofs.DeliverySteps

namespace Newtmq

open KeyedList (map_modify mem_modify)
open Transition (Reaches)

/-- The index of a queue, without the frames counted since the start, is at most the length of the
data file without the frames written and recovered. -/
def Balanced (start s : Delivery) (qinfo : QueueInfo) : Prop :=
  qinfo.indexSent + totalSize (contents qinfo.qid start.queues) +
      totalBytes (ofHash qinfo.qid s.written) ≤
    (s.pm.dataFile qinfo.dirpath).length + totalSize (ofHash qinfo.qid s.counted)

/-- The frame that the management worker has accepted. -/
def HandlerPoint.object : HandlerPoint → Option FrameObject
  | .idle => none
  | .accepted _ object => some object
  | .created _ object _ => some object
  | .linked _ object _ => some object
  | .persisted _ object => some object

structure IndexInv (start s : Delivery) : Prop where
  inside : SentIndexInside s.pm
  ids : (s.pm.qinfos.map QueueInfo.qid).Nodup
  balanced : ∀ qinfo ∈ s.pm.qinfos, Balanced start s qinfo
  unknown : ∀ hashnum, getQinfo hashnum s.pm = none → ofHash hashnum s.counted = [] ∧
    ofHash hashnum s.written = [] ∧ contents hashnum start.queues = []
  accepted : ∀ object, s.handler.object = some object → SizeFits object.frame
  pending : ∀ qinfo ∈ s.pm.qinfos, ∀ object ∈ qinfo.unpersistent, SizeFits object.frame
  written : ∀ entry ∈ s.written, SizeFits entry.2.frame

theorem indexInv_start {start : Delivery} (rested : start.Rested) (fits : start.FitsFiles) :
    IndexInv start start where
  inside := fits.stored
  ids := rested.ids
  balanced qinfo mem := by
    rw [Balanced, rested.records.2.2.1, rested.records.2.2.2]
    simpa using fits.recovered qinfo mem
  unknown hashnum none := by
    rw [rested.records.2.2.1, rested.records.2.2.2]
    exact ⟨rfl, rfl, rested.known hashnum none⟩
  accepted object found := by
    rw [rested.handler] at found
    cases found
  pending qinfo mem object memObject := by
    rw [rested.pending qinfo mem] at memObject
    cases memObject
  written entry mem := by
    rw [rested.records.2.2.2] at mem
    cases mem

/-- Frames that are written are at most as large as their bytes. -/
theorem totalSize_le_bytes {objects : List FrameObject}
    (fits : ∀ object ∈ objects, SizeFits object.frame) : totalSize objects ≤ totalBytes objects := by
  induction objects with
  | nil => exact Int.le_refl 0
  | cons object objects ih =>
      have first := (fits object (by simp)).2
      have rest := ih fun o mem => fits o (List.mem_cons_of_mem object mem)
      simp only [totalSize, totalBytes, List.map_cons, List.sum_cons] at rest ⊢
      omega

/-- An index that is stored when all frames counted in it have been written lies inside the file. -/
theorem IndexInv.stored_inside {start s : Delivery} (fits : start.FitsFiles)
    (inv : IndexInv start s) {qinfo : QueueInfo} (mem : qinfo ∈ s.pm.qinfos)
    (flushed : (ofHash qinfo.qid s.counted).Subperm
      (contents qinfo.qid start.queues ++ ofHash qinfo.qid s.written)) :
    qinfo.indexSent ≤ (s.pm.dataFile qinfo.dirpath).length := by
  have balance := inv.balanced qinfo mem
  rw [Balanced] at balance
  have sizes : ∀ object ∈ ofHash qinfo.qid s.written, SizeFits object.frame :=
    fun object memObject => inv.written _ (mem_ofHash memObject)
  have among := totalSize_le_of_subperm flushed fun object memObject => by
    rcases List.mem_append.mp memObject with recovered | written
    · exact fits.sizes qinfo.qid object recovered
    · exact (sizes object written).1
  have bytes := totalSize_le_bytes sizes
  rw [totalSize_append] at among
  omega

/-! ### Preservation -/

/-- A step that leaves the persistent manager and the records of what is counted and written alone. -/
theorem IndexInv.unrelated {start s next : Delivery} (inv : IndexInv start s)
    (pm : next.pm = s.pm) (counted : next.counted = s.counted) (written : next.written = s.written)
    (accepted : ∀ object, next.handler.object = some object →
      s.handler.object = some object ∨ SizeFits object.frame) : IndexInv start next where
  inside := by
    rw [pm]
    exact inv.inside
  ids := by
    rw [pm]
    exact inv.ids
  balanced qinfo mem := by
    rw [pm] at mem
    rw [Balanced, pm, counted, written]
    exact inv.balanced qinfo mem
  unknown hashnum none := by
    rw [pm] at none
    rw [counted, written]
    exact inv.unknown hashnum none
  accepted object found := by
    rcases accepted object found with before | fits
    · exact inv.accepted object before
    · exact fits
  pending := by
    rw [pm]
    exact inv.pending
  written := by
    rw [written]
    exact inv.written

/-- A change of one `queue_info` object that concerns neither its index nor its directory. -/
theorem IndexInv.modify {start s : Delivery} (inv : IndexInv start s) (place : Nat)
    {f : QueueInfo → QueueInfo} {handler : HandlerPoint}
    (same : ∀ qinfo, (f qinfo).qid = qinfo.qid ∧ (f qinfo).dirpath = qinfo.dirpath ∧
      (f qinfo).indexSent = qinfo.indexSent)
    (pending : ∀ qinfo, ∀ object ∈ (f qinfo).unpersistent,
      object ∈ qinfo.unpersistent ∨ SizeFits object.frame)
    (accepted : handler.object = s.handler.object) :
    IndexInv start { s with
      pm := { s.pm with qinfos := s.pm.qinfos.modify place f }, handler := handler } where
  inside := inv.inside
  ids := by
    rw [map_modify QueueInfo.qid place fun qinfo => (same qinfo).1]
    exact inv.ids
  balanced qinfo mem := by
    rcases mem_modify inv.ids mem with ⟨old, here, rfl⟩ | ⟨old, -⟩
    · obtain ⟨qid, dirpath, indexSent⟩ := same old
      rw [Balanced, qid, dirpath, indexSent]
      exact inv.balanced old (List.mem_of_getElem? here)
    · exact inv.balanced qinfo old
  unknown hashnum none := by
    apply inv.unknown hashnum
    exact (getQinfo_none_modify rfl fun qinfo => (same qinfo).1).mp none
  accepted object found := inv.accepted object (accepted ▸ found)
  pending qinfo mem object memObject := by
    rcases mem_modify inv.ids mem with ⟨old, here, rfl⟩ | ⟨old, -⟩
    · rcases pending old object memObject with before | fits
      · exact inv.pending old (List.mem_of_getElem? here) object before
      · exact fits
    · exact inv.pending qinfo old object memObject
  written := inv.written

/-- A new `queue_info` object takes over the stored index of its directory. -/
theorem IndexInv.createNew {start s : Delivery} (inv : IndexInv start s) {qname : List UInt8}
    {handler : HandlerPoint} (unknown : getQinfo (getHash qname) s.pm = none)
    (accepted : handler.object = s.handler.object) :
    IndexInv start { s with
      pm := { (allocQinfo qname s.pm).2 with qinfos := s.pm.qinfos ++ [(allocQinfo qname s.pm).1] }
      handler := handler } := by
  obtain ⟨qid, dirpath, unpersistent, indexSent⟩ := allocQinfo_fields qname s.pm
  have files := allocQinfo_files qname s.pm
  constructor
  case inside =>
    intro other
    rw [storedIndex_qinfos, dataFile_qinfos, (files other).1, (files other).2]
    exact inv.inside other
  case ids =>
    have fresh := getQinfo_none.mp unknown
    simp only [List.map_append, List.map_cons, List.map_nil, qid]
    exact List.nodup_append'.mpr ⟨inv.ids, List.nodup_singleton _, by simpa using fresh⟩
  case balanced =>
    intro qinfo mem
    rw [Balanced, dataFile_qinfos, (files qinfo.dirpath).1]
    rcases List.mem_append.mp mem with old | new
    · exact inv.balanced qinfo old
    · obtain rfl := List.mem_singleton.mp new
      obtain ⟨counted, written, recovered⟩ := inv.unknown _ unknown
      rw [qid, dirpath, indexSent, recovered, counted, written]
      simpa using inv.inside (queueDir s.pm qname)
  case unknown =>
    intro hashnum none
    have absent := getQinfo_none.mp none
    apply inv.unknown
    rw [getQinfo_none]
    intro mem
    exact absent (by simp [List.map_append, mem])
  case accepted =>
    intro object found
    exact inv.accepted object (accepted ▸ found)
  case pending =>
    intro qinfo mem object memObject
    rcases List.mem_append.mp mem with old | new
    · exact inv.pending qinfo old object memObject
    · obtain rfl := List.mem_singleton.mp new
      rw [unpersistent] at memObject
      cases memObject
  case written => exact inv.written

/-- `update_index_sent` adds the size of a frame to the index of its queue. -/
theorem IndexInv.count {start s : Delivery} (inv : IndexInv start s) {hashnum : UInt64}
    (object : FrameObject) {place : Nat} (known : getQinfo hashnum s.pm = some place) :
    IndexInv start { s with
      pm := { s.pm with
        qinfos := s.pm.qinfos.modify place fun qinfo =>
          { qinfo with indexSent := qinfo.indexSent + object.frame.size } }
      counted := s.counted ++ [(hashnum, object)] } := by
  obtain ⟨target, there, qid⟩ := getQinfo_some known
  constructor
  case inside => exact inv.inside
  case ids =>
    rw [map_modify QueueInfo.qid]
    · exact inv.ids
    · exact fun _ => rfl
  case balanced =>
    intro qinfo mem
    rcases mem_modify inv.ids mem with ⟨old, here, rfl⟩ | ⟨old, other⟩
    · obtain rfl : target = old := by simpa [there] using here
      have before := inv.balanced target (List.mem_of_getElem? here)
      simp only [Balanced, dataFile_qinfos, ofHash_append, ofHash_singleton, qid, if_true,
        totalSize_append, totalSize_singleton] at before ⊢
      omega
    · have apart : hashnum ≠ qinfo.qid := by
        rw [← qid]
        exact (other target there).symm
      have before := inv.balanced qinfo old
      simp only [Balanced, dataFile_qinfos, ofHash_append, ofHash_singleton, apart, if_false,
        List.append_nil] at before ⊢
      exact before
  case unknown =>
    intro other none
    have absent : getQinfo other s.pm = Option.none := by
      refine (getQinfo_none_modify rfl ?_).mp none
      exact fun _ => rfl
    have apart : hashnum ≠ other := by
      rintro rfl
      rw [known] at absent
      cases absent
    obtain ⟨counted, written, recovered⟩ := inv.unknown other absent
    refine ⟨?_, written, recovered⟩
    simp [counted, apart]
  case accepted => exact inv.accepted
  case pending =>
    intro qinfo mem waiting memWaiting
    rcases mem_modify inv.ids mem with ⟨old, here, rfl⟩ | ⟨old, -⟩
    · exact inv.pending old (List.mem_of_getElem? here) waiting memWaiting
    · exact inv.pending qinfo old waiting memWaiting
  case written => exact inv.written

/-- Storing an index that lies inside the file. -/
theorem IndexInv.storeIndex {start s : Delivery} (inv : IndexInv start s) {qinfo : QueueInfo}
    {flusher : FlusherPoint}
    (inside : qinfo.indexSent ≤ (s.pm.dataFile qinfo.dirpath).length) :
    IndexInv start { s with pm := persistQueueInfo qinfo s.pm, flusher := flusher } where
  inside dirpath := by
    rw [storedIndex_persistQueueInfo, dataFile_persistQueueInfo]
    split
    next same =>
      rw [same]
      exact inside
    · exact inv.inside dirpath
  ids := inv.ids
  balanced other mem := by
    rw [Balanced, dataFile_persistQueueInfo]
    exact inv.balanced other mem
  unknown := inv.unknown
  accepted := inv.accepted
  pending := inv.pending
  written := inv.written

/-- A write makes a file longer. -/
theorem length_dataFile_persistOne (object : FrameObject) (qinfo : QueueInfo)
    (pm : PersistentManager) (dirpath : List UInt8) :
    (pm.dataFile dirpath).length ≤ ((persistOne object qinfo pm).2.dataFile dirpath).length := by
  rw [dataFile_persistOne]
  split
  · simp
  · exact Nat.le_refl _

/-- Writing a pending frame. -/
theorem IndexInv.write {start s : Delivery} (inv : IndexInv start s) {place : Nat}
    {qinfo : QueueInfo} {object : FrameObject} {rest : List FrameObject}
    (here : s.pm.qinfos[place]? = some qinfo) (pending : qinfo.unpersistent = object :: rest) :
    IndexInv start { s with
      pm := { (persistOne object qinfo s.pm).2 with
        qinfos := s.pm.qinfos.set place (persistOne object qinfo s.pm).1 }
      written := s.written ++ [(qinfo.qid, object)] } := by
  have mem := List.mem_of_getElem? here
  have fits : SizeFits object.frame := inv.pending qinfo mem object (by simp [pending])
  rw [set_persistOne here]
  constructor
  case inside =>
    intro dirpath
    have grows := length_dataFile_persistOne object qinfo s.pm dirpath
    have before := inv.inside dirpath
    simp only [storedIndex_qinfos, storedIndex_persistOne, dataFile_qinfos]
    omega
  case ids =>
    rw [map_modify QueueInfo.qid]
    · exact inv.ids
    · exact fun _ => rfl
  case balanced =>
    intro other memOther
    rcases mem_modify inv.ids memOther with ⟨old, found, rfl⟩ | ⟨old, apart⟩
    · obtain rfl : qinfo = old := by simpa [here] using found
      have before := inv.balanced qinfo mem
      simp only [Balanced, dataFile_qinfos, dataFile_persistOne, ofHash_append, ofHash_singleton,
        if_true, totalBytes_append, totalBytes_singleton, List.length_append]
        at before ⊢
      omega
    · have different : qinfo.qid ≠ other.qid := (apart qinfo here).symm
      have before := inv.balanced other old
      have grows := length_dataFile_persistOne object qinfo s.pm other.dirpath
      simp only [Balanced, dataFile_qinfos, ofHash_append, ofHash_singleton, different, if_false,
        List.append_nil] at before ⊢
      omega
  case unknown =>
    intro hashnum none
    obtain ⟨absent, others⟩ : getQinfo hashnum s.pm = .none ∧
        ∀ other ∈ s.pm.qinfos, other.qid ≠ hashnum := by
      refine getQinfo_none_apart rfl ?_ none
      exact fun _ => rfl
    have apart := others qinfo mem
    obtain ⟨counted, written, recovered⟩ := inv.unknown hashnum absent
    refine ⟨counted, ?_, recovered⟩
    simp [written, apart]
  case accepted => exact inv.accepted
  case pending =>
    intro other memOther waiting memWaiting
    rcases mem_modify inv.ids memOther with ⟨old, found, rfl⟩ | ⟨old, -⟩
    · exact inv.pending old (List.mem_of_getElem? found) waiting (List.mem_of_mem_tail memWaiting)
    · exact inv.pending other old waiting memWaiting
  case written =>
    intro entry memEntry
    rcases List.mem_append.mp memEntry with before | new
    · exact inv.written entry before
    · obtain rfl := List.mem_singleton.mp new
      exact fits

/-! ### Runs -/

theorem indexInv_step {destination : Nat → List UInt8} {start s next : Delivery}
    {action : DeliveryAction} (fits : start.FitsFiles) (inv : IndexInv start s)
    (allowed : FlushedBeforeStored start s action)
    (taken : deliveryStep destination s action = some next) : IndexInv start next := by
  cases deliveryStep_cases taken with
  | accept point =>
      refine inv.unrelated rfl rfl rfl ?_
      intro other found
      cases found
      exact Or.inr allowed
  | createKnown point known =>
      refine inv.unrelated rfl rfl rfl ?_
      intro other found
      rw [point]
      exact Or.inl found
  | createNew point unknown =>
      apply inv.createNew unknown
      rw [point]
      rfl
  | link point =>
      refine inv.modify _ ?_ ?_ ?_
      · exact fun _ => ⟨rfl, rfl, rfl⟩
      · intro qinfo waiting mem
        rcases List.mem_append.mp mem with before | new
        · exact Or.inl before
        · obtain rfl := List.mem_singleton.mp new
          apply Or.inr
          apply inv.accepted
          rw [point]
          rfl
      · rw [point]
        rfl
  | grow point =>
      refine inv.modify _ ?_ ?_ ?_
      · exact fun _ => ⟨rfl, rfl, rfl⟩
      · exact fun qinfo waiting mem => Or.inl mem
      · rw [point]
        rfl
  | enqueue point =>
      refine inv.unrelated rfl rfl rfl ?_
      intro other found
      cases found
  | dequeueNone got => exact inv.unrelated rfl rfl rfl fun _ found => Or.inl found
  | dequeueSome point got => exact inv.unrelated rfl rfl rfl fun _ found => Or.inl found
  | send point => exact inv.unrelated rfl rfl rfl fun _ found => Or.inl found
  | @count worker object place point known =>
      exact (inv.count object known).unrelated rfl rfl rfl fun _ found => Or.inl found
  | countNone point => exact inv.unrelated rfl rfl rfl fun _ found => Or.inl found
  | enter => exact inv.unrelated rfl rfl rfl fun _ found => Or.inl found
  | storeIndex point here =>
      apply inv.storeIndex
      apply inv.stored_inside fits (List.mem_of_getElem? here)
      rw [FlushedBeforeStored, point] at allowed
      exact allowed _ here
  | compare point => exact inv.unrelated rfl rfl rfl fun _ found => Or.inl found
  | write here pending => exact inv.write here pending
  | writeNone point => exact inv.unrelated rfl rfl rfl fun _ found => Or.inl found

/-- In every run in which an index is stored only after the frames counted in it have been written, a
crash after any step leaves the stored indexes inside the data files. -/
theorem sentIndex_inside {destination : Nat → List UInt8} {start s : Delivery}
    (rested : start.Rested) (fits : start.FitsFiles)
    (reached : Reaches (deliveryStep destination) (FlushedBeforeStored start) start s) :
    SentIndexInside s.pm :=
  (reached.invariant (fun _ _ _ inv allowed taken => indexInv_step fits inv allowed taken)
    (indexInv_start rested fits)).inside

/-- The steps that deliver one frame. The persistent worker passes over its queue before and after it
is counted. -/
def deliverLetter : List DeliveryAction :=
  [.accept (cstring "q") letterA, .create, .link, .grow, .enqueue, .dequeue 0, .send 0, .enter,
    .storeIndex, .compare, .write, .write, .count 0, .enter, .storeIndex]

theorem sentIndex_inside_deliverLetter :
    ∃ s, Transition.run
        (Transition.guarded (deliveryStep fun _ => cstring "q")
          (FlushedBeforeStored (Delivery.init (cstring "data"))))
        (Delivery.init (cstring "data")) deliverLetter = some s ∧
      unpersistQueueInfo (cstring "data/q") s.pm = 39 ∧ SentIndexInside s.pm := by
  have taken : ∃ s, Transition.run
        (Transition.guarded (deliveryStep fun _ => cstring "q")
          (FlushedBeforeStored (Delivery.init (cstring "data"))))
        (Delivery.init (cstring "data")) deliverLetter = some s ∧
      unpersistQueueInfo (cstring "data/q") s.pm = 39 := by
    apply Option.map_eq_some_iff.mp
    decide +kernel
  obtain ⟨s, taken, stored⟩ := taken
  exact ⟨s, taken, stored, sentIndex_inside (init_rested _) (init_fitsFiles _)
    (Transition.reaches_of_guarded_run taken)⟩

/-- The persistent worker can come to the queue after its frame has been delivered and counted, and
before it is written. -/
def countBeforeWrite : List DeliveryAction :=
  [.accept (cstring "q") letterA, .create, .link, .grow, .enqueue, .dequeue 0, .send 0, .count 0,
    .enter, .storeIndex]

theorem sentIndex_beyond_file :
    ¬ ∀ s, Reaches (deliveryStep fun _ => cstring "q") AcceptsExactSizes
      (Delivery.init (cstring "data")) s → SentIndexInside s.pm := by
  intro always
  have taken : ∃ s, Transition.run
        (Transition.guarded (deliveryStep fun _ => cstring "q") AcceptsExactSizes)
        (Delivery.init (cstring "data")) countBeforeWrite = some s ∧
      (unpersistQueueInfo (cstring "data/q") s.pm, s.pm.dataFile (cstring "data/q")) =
        (39, []) := by
    apply Option.map_eq_some_iff.mp
    decide +kernel
  obtain ⟨s, taken, files⟩ := taken
  have inside := always s (Transition.reaches_of_guarded_run taken) (cstring "data/q")
  obtain ⟨stored, empty⟩ := Prod.mk.inj files
  rw [stored, empty] at inside
  exact absurd inside (by decide)

end Newtmq
