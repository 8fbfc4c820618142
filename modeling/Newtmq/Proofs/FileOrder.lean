/-
Module: Newtmq.Proofs.FileOrder
Purpose: The order in which frames leave a queue and the order in which they come to the data file.
  The two are the same in every run, whatever the order of the steps.
Trusted boundary: none
Main exports: Delivery.queueOrder, linkedBy, queueOrder_step, LineInv, lineInv_start, lineInv_step,
  taken_prefix_fileOrder
-/
import Newtmq.Proofs.DeliverySteps

namespace Newtmq

open KeyedList (map_modify mem_modify)

/-! ### Leaving the queue -/

/-- A frame that is linked in `h_unpersistent` and not yet enqueued. -/
def HandlerPoint.entering (hashnum : UInt64) : HandlerPoint → List FrameObject
  | .linked qname object _ => ofHash hashnum [(getHash qname, object)]
  | .persisted qname object => ofHash hashnum [(getHash qname, object)]
  | _ => []

/-- The frames of a queue in the order in which they leave it: those dequeued, those enqueued, and the
one that is about to be enqueued. -/
def Delivery.queueOrder (s : Delivery) (hashnum : UInt64) : List FrameObject :=
  ofHash hashnum s.taken ++ contents hashnum s.queues ++ s.handler.entering hashnum

/-- Only the link of a frame adds to the order of a queue. -/
theorem queueOrder_step {destination : Nat → List UInt8} {s next : Delivery} {action : DeliveryAction}
    (wellFormed : s.queues.WellFormed) (step : DeliveryStep destination s action next)
    (hashnum : UInt64) :
    next.queueOrder hashnum = s.queueOrder hashnum ++ ofHash hashnum (linkedBy s action) := by
  cases step with
  | link point => simp [Delivery.queueOrder, HandlerPoint.entering, linkedBy, point]
  | @enqueue qname object point =>
      simp only [Delivery.queueOrder, HandlerPoint.entering, linkedBy, point,
        contents_enqueue wellFormed, ofHash_singleton, ofHash_nil]
      by_cases same : hashnum = getHash qname
      · subst same
        simp
      · simp [same, Ne.symm same]
  | @dequeueNone worker queues got =>
      have empty := dequeue_fst wellFormed (destination worker)
      have here := contents_dequeue wellFormed (destination worker) hashnum
      rw [got] at empty here
      simp only [Delivery.queueOrder, linkedBy, here, ofHash_nil, List.append_nil]
      by_cases same : hashnum = getHash (destination worker)
      · subst same
        simp [List.head?_eq_none_iff.mp empty.symm]
      · simp [same]
  | @dequeueSome worker object queues point got =>
      have first := dequeue_fst wellFormed (destination worker)
      have here := contents_dequeue wellFormed (destination worker) hashnum
      rw [got] at first here
      simp only [Delivery.queueOrder, Delivery.setWorker, linkedBy, here, ofHash_append,
        ofHash_singleton, ofHash_nil, List.append_nil]
      by_cases same : hashnum = getHash (destination worker)
      · subst same
        obtain ⟨rest, contents⟩ := List.head?_eq_some_iff.mp first.symm
        simp [contents]
      · simp [same, Ne.symm same]
  | accept point => simp [Delivery.queueOrder, HandlerPoint.entering, linkedBy, point]
  | createKnown point known => simp [Delivery.queueOrder, HandlerPoint.entering, linkedBy, point]
  | createNew point unknown => simp [Delivery.queueOrder, HandlerPoint.entering, linkedBy, point]
  | grow point => simp [Delivery.queueOrder, HandlerPoint.entering, linkedBy, point]
  | _ => exact (List.append_nil _).symm

/-- A frame that is linked is entering until it is enqueued. -/
theorem entering_step {destination : Nat → List UInt8} {s next : Delivery} {action : DeliveryAction}
    (step : DeliveryStep destination s action next) (hashnum : UInt64) :
    ofHash hashnum (enqueuedBy s action) ++ next.handler.entering hashnum =
      s.handler.entering hashnum ++ ofHash hashnum (linkedBy s action) := by
  cases step with
  | accept point => simp [HandlerPoint.entering, enqueuedBy, linkedBy, point]
  | createKnown point known => simp [HandlerPoint.entering, enqueuedBy, linkedBy, point]
  | createNew point unknown => simp [HandlerPoint.entering, enqueuedBy, linkedBy, point]
  | link point => simp [HandlerPoint.entering, enqueuedBy, linkedBy, point]
  | grow point => simp [HandlerPoint.entering, enqueuedBy, linkedBy, point]
  | enqueue point => simp [HandlerPoint.entering, enqueuedBy, linkedBy, point]
  | _ => exact (List.append_nil _).symm

/-- Frames enter a queue at one end and leave it at the other. -/
theorem fifo_step {destination : Nat → List UInt8} {s next : Delivery} {action : DeliveryAction}
    (wellFormed : s.queues.WellFormed) (step : DeliveryStep destination s action next)
    {before : List FrameObject} {enqueued : List (UInt64 × FrameObject)} {hashnum : UInt64}
    (fifo : before ++ ofHash hashnum enqueued =
      ofHash hashnum s.taken ++ contents hashnum s.queues) :
    before ++ ofHash hashnum (enqueued ++ enqueuedBy s action) =
      ofHash hashnum next.taken ++ contents hashnum next.queues := by
  apply (List.append_left_inj (next.handler.entering hashnum)).mp
  calc before ++ ofHash hashnum (enqueued ++ enqueuedBy s action) ++ next.handler.entering hashnum
      = before ++ ofHash hashnum enqueued ++
          (ofHash hashnum (enqueuedBy s action) ++ next.handler.entering hashnum) := by
        simp only [ofHash_append, List.append_assoc]
    _ = s.queueOrder hashnum ++ ofHash hashnum (linkedBy s action) := by
        rw [entering_step step, fifo, ← List.append_assoc, Delivery.queueOrder]
    _ = next.queueOrder hashnum := (queueOrder_step wellFormed step hashnum).symm

/-- In every state, the order of a queue whose object exists is the order of its file. -/
structure LineInv (start s : Delivery) : Prop where
  queues : s.queues.WellFormed
  ids : (s.pm.qinfos.map QueueInfo.qid).Nodup
  created : ∀ qname object place, s.handler = .created qname object place →
    ∃ qinfo, s.pm.qinfos[place]? = some qinfo ∧ qinfo.qid = getHash qname
  known : ∀ qinfo ∈ s.pm.qinfos, s.queueOrder qinfo.qid = fileOrder start s qinfo
  unknown : ∀ hashnum, getQinfo hashnum s.pm = none → s.queueOrder hashnum = [] ∧
    contents hashnum start.queues = [] ∧ ofHash hashnum s.written = []

theorem lineInv_start {start : Delivery} (rested : start.Rested) : LineInv start start where
  queues := rested.queues
  ids := rested.ids
  created qname object place point := by
    rw [rested.handler] at point
    cases point
  known qinfo mem := by
    rw [Delivery.queueOrder, fileOrder, rested.handler, rested.records.1, rested.records.2.2.2,
      rested.pending qinfo mem]
    simp [HandlerPoint.entering]
  unknown hashnum none := by
    rw [Delivery.queueOrder, rested.handler, rested.records.1, rested.records.2.2.2,
      rested.known hashnum none]
    exact ⟨rfl, rfl, rfl⟩

/-- A step that changes neither the order of the queues nor the list of objects. -/
theorem LineInv.kept {start s next : Delivery} (inv : LineInv start s)
    (queues : next.queues.WellFormed) (qinfos : next.pm.qinfos = s.pm.qinfos)
    (written : next.written = s.written)
    (order : ∀ hashnum, next.queueOrder hashnum = s.queueOrder hashnum)
    (created : ∀ qname object place, next.handler = .created qname object place →
      ∃ qinfo, s.pm.qinfos[place]? = some qinfo ∧ qinfo.qid = getHash qname) :
    LineInv start next where
  queues := queues
  ids := by
    rw [qinfos]
    exact inv.ids
  created qname object place point := by
    rw [qinfos]
    exact created qname object place point
  known qinfo mem := by
    rw [qinfos] at mem
    rw [order, inv.known qinfo mem, fileOrder, fileOrder, written]
  unknown hashnum none := by
    rw [order, written]
    apply inv.unknown
    rw [getQinfo_none, ← qinfos]
    exact getQinfo_none.mp none

/-- A change of one object that concerns neither its id nor its pending frames. -/
theorem LineInv.modify {start s next : Delivery} (inv : LineInv start s) {place : Nat}
    {f : QueueInfo → QueueInfo} (queues : next.queues = s.queues)
    (qinfos : next.pm.qinfos = s.pm.qinfos.modify place f) (written : next.written = s.written)
    (order : ∀ hashnum, next.queueOrder hashnum = s.queueOrder hashnum)
    (same : ∀ qinfo, (f qinfo).qid = qinfo.qid ∧ (f qinfo).unpersistent = qinfo.unpersistent)
    (created : ∀ qname object place, next.handler = .created qname object place →
      s.handler = .created qname object place) :
    LineInv start next where
  queues := by
    rw [queues]
    exact inv.queues
  ids := by
    rw [qinfos, map_modify QueueInfo.qid place fun qinfo => (same qinfo).1]
    exact inv.ids
  created qname object other point := by
    obtain ⟨qinfo, here, qid⟩ := inv.created qname object other (created _ _ _ point)
    rw [qinfos, List.getElem?_modify, here]
    by_cases changed : place = other
    · exact ⟨f qinfo, by simp [changed], (same qinfo).1.trans qid⟩
    · exact ⟨qinfo, by simp [changed], qid⟩
  known qinfo mem := by
    rw [qinfos] at mem
    rw [order, fileOrder, written]
    rcases mem_modify inv.ids mem with ⟨old, here, rfl⟩ | ⟨old, -⟩
    · rw [(same old).1, (same old).2]
      exact inv.known old (List.mem_of_getElem? here)
    · exact inv.known qinfo old
  unknown hashnum none := by
    rw [order, written]
    exact inv.unknown hashnum ((getQinfo_none_modify qinfos fun qinfo => (same qinfo).1).mp none)

/-- A new object for a queue that has had no frame. -/
theorem LineInv.createNew {start s next : Delivery} (inv : LineInv start s) (new : QueueInfo)
    (unknown : getQinfo new.qid s.pm = none) (pending : new.unpersistent = [])
    (queues : next.queues = s.queues) (qinfos : next.pm.qinfos = s.pm.qinfos ++ [new])
    (written : next.written = s.written)
    (order : ∀ hashnum, next.queueOrder hashnum = s.queueOrder hashnum)
    (created : ∀ qname object place, next.handler = .created qname object place →
      place = s.pm.qinfos.length ∧ new.qid = getHash qname) : LineInv start next where
  queues := by
    rw [queues]
    exact inv.queues
  ids := by
    have fresh := getQinfo_none.mp unknown
    rw [qinfos, List.map_append, List.nodup_append']
    exact ⟨inv.ids, List.nodup_singleton _, by simpa using fresh⟩
  created qname object place point := by
    obtain ⟨rfl, qid⟩ := created qname object place point
    exact ⟨new, by simp [qinfos], qid⟩
  known qinfo mem := by
    rw [qinfos] at mem
    rw [order, fileOrder, written]
    rcases List.mem_append.mp mem with old | last
    · exact inv.known qinfo old
    · obtain rfl := List.mem_singleton.mp last
      obtain ⟨none, recovered, noneWritten⟩ := inv.unknown _ unknown
      rw [none, recovered, noneWritten, pending]
      rfl
  unknown hashnum none := by
    rw [order, written]
    apply inv.unknown
    have absent := getQinfo_none.mp none
    rw [getQinfo_none]
    intro mem
    exact absent (by simp [qinfos, mem])

/-- Linking a frame puts it at the end of both orders. -/
theorem LineInv.link {start s : Delivery} (inv : LineInv start s) {qname : List UInt8}
    {object : FrameObject} {place : Nat} (point : s.handler = .created qname object place) :
    LineInv start { s with
      pm := addFrameIntoQinfo place object s.pm, handler := .linked qname object place } := by
  obtain ⟨target, there, qid⟩ := inv.created qname object place point
  have order : ∀ hashnum, Delivery.queueOrder { s with
      pm := addFrameIntoQinfo place object s.pm, handler := .linked qname object place } hashnum =
        s.queueOrder hashnum ++ ofHash hashnum [(getHash qname, object)] := by
    intro hashnum
    simp [Delivery.queueOrder, HandlerPoint.entering, point]
  constructor
  case queues => exact inv.queues
  case ids =>
    rw [addFrameIntoQinfo, map_modify QueueInfo.qid]
    · exact inv.ids
    · exact fun _ => rfl
  case created =>
    intro _ _ _ found
    cases found
  case known =>
    intro qinfo mem
    rw [order]
    rcases mem_modify inv.ids mem with ⟨old, here, rfl⟩ | ⟨old, other⟩
    · obtain rfl : target = old := by simpa [there] using here
      have before := inv.known target (List.mem_of_getElem? there)
      simp only [fileOrder] at before ⊢
      rw [before, ofHash_singleton, if_pos qid.symm, List.append_assoc]
    · have apart : getHash qname ≠ qinfo.qid := by
        rw [← qid]
        exact (other target there).symm
      rw [inv.known qinfo old, ofHash_singleton, if_neg apart, List.append_nil]
      rfl
  case unknown =>
    intro hashnum none
    have absent : getQinfo hashnum s.pm = Option.none := by
      refine (getQinfo_none_modify rfl ?_).mp none
      exact fun _ => rfl
    have apart : getHash qname ≠ hashnum := by
      rintro rfl
      exact getQinfo_none.mp absent (List.mem_map.mpr ⟨target, List.mem_of_getElem? there, qid⟩)
    rw [order, ofHash_singleton, if_neg apart, List.append_nil]
    exact inv.unknown hashnum absent

/-- Writing a frame moves it from the pending ones to the written ones. -/
theorem LineInv.write {start s : Delivery} (inv : LineInv start s) {place : Nat}
    {qinfo : QueueInfo} {object : FrameObject} {rest : List FrameObject}
    (here : s.pm.qinfos[place]? = some qinfo) (pending : qinfo.unpersistent = object :: rest) :
    LineInv start { s with
      pm := { (persistOne object qinfo s.pm).2 with
        qinfos := s.pm.qinfos.set place (persistOne object qinfo s.pm).1 }
      written := s.written ++ [(qinfo.qid, object)] } := by
  rw [set_persistOne here]
  have mem := List.mem_of_getElem? here
  constructor
  case queues => exact inv.queues
  case ids =>
    rw [map_modify QueueInfo.qid]
    · exact inv.ids
    · exact fun _ => rfl
  case created =>
    intro qname taken other point
    obtain ⟨old, found, qid⟩ := inv.created qname taken other point
    rw [List.getElem?_modify, found]
    exact ⟨_, rfl, by split <;> exact qid⟩
  case known =>
    intro other memOther
    rcases mem_modify inv.ids memOther with ⟨old, found, rfl⟩ | ⟨old, apart⟩
    · obtain rfl : qinfo = old := by simpa [here] using found
      have before := inv.known qinfo mem
      simp only [fileOrder, pending] at before ⊢
      simp only [ofHash_append, ofHash_singleton, if_true, List.tail_cons]
      rw [List.append_assoc, List.append_assoc, List.singleton_append, ← List.append_assoc]
      exact before
    · have different : qinfo.qid ≠ other.qid := (apart qinfo here).symm
      rw [fileOrder, ofHash_append, ofHash_singleton, if_neg different, List.append_nil]
      exact inv.known other old
  case unknown =>
    intro hashnum none
    obtain ⟨absent, others⟩ : getQinfo hashnum s.pm = .none ∧
        ∀ other ∈ s.pm.qinfos, other.qid ≠ hashnum := by
      refine getQinfo_none_apart rfl ?_ none
      exact fun _ => rfl
    have apart := others qinfo mem
    rw [ofHash_append, ofHash_singleton, if_neg apart, List.append_nil]
    exact inv.unknown hashnum absent

/-- A step keeps the queues well formed. -/
theorem queues_step {destination : Nat → List UInt8} {s next : Delivery} {action : DeliveryAction}
    (queues : s.queues.WellFormed) (step : DeliveryStep destination s action next) :
    next.queues.WellFormed := by
  cases step with
  | @enqueue qname object point =>
      exact queues.enqueue object qname
  | @dequeueNone worker after got =>
      have wf := queues.dequeue (destination worker)
      rwa [got] at wf
  | @dequeueSome worker object after point got =>
      have wf := queues.dequeue (destination worker)
      rwa [got] at wf
  | _ => exact queues

theorem lineInv_step {destination : Nat → List UInt8} {start s next : Delivery}
    {action : DeliveryAction} (inv : LineInv start s)
    (taken : deliveryStep destination s action = some next) : LineInv start next := by
  have step := deliveryStep_cases taken
  have queues := queues_step inv.queues step
  have order := queueOrder_step inv.queues step
  cases step with
  | link point => exact inv.link point
  | write here pending => exact inv.write here pending
  | @createNew qname object point unknown =>
      refine inv.createNew (allocQinfo qname s.pm).1 unknown rfl rfl rfl rfl ?_ ?_
      · simpa [linkedBy] using order
      · intro _ _ _ found
        cases found
        exact ⟨rfl, rfl⟩
  | grow point =>
      refine inv.modify rfl rfl rfl ?_ ?_ ?_
      · simpa [linkedBy] using order
      · exact fun _ => ⟨rfl, rfl⟩
      · intro _ _ _ found
        cases found
  | count point known =>
      refine inv.modify rfl rfl rfl ?_ ?_ ?_
      · exact fun _ => rfl
      · exact fun _ => ⟨rfl, rfl⟩
      · exact fun _ _ _ found => found
  | createKnown point known =>
      refine inv.kept queues rfl rfl ?_ ?_
      · simpa [linkedBy] using order
      · intro _ _ _ found
        cases found
        exact getQinfo_some known
  | accept point =>
      refine inv.kept queues rfl rfl ?_ ?_
      · simpa [linkedBy] using order
      · intro _ _ _ found
        cases found
  | enqueue point =>
      refine inv.kept queues rfl rfl ?_ ?_
      · simpa [linkedBy] using order
      · intro _ _ _ found
        cases found
  | dequeueNone got =>
      refine inv.kept queues rfl rfl ?_ inv.created
      simpa [linkedBy] using order
  | dequeueSome point got =>
      refine inv.kept queues rfl rfl ?_ inv.created
      simpa [linkedBy] using order
  | send point => exact inv.kept queues rfl rfl (fun _ => rfl) inv.created
  | countNone point => exact inv.kept queues rfl rfl (fun _ => rfl) inv.created
  | enter => exact inv.kept queues rfl rfl (fun _ => rfl) inv.created
  | storeIndex point here => exact inv.kept queues rfl rfl (fun _ => rfl) inv.created
  | compare point => exact inv.kept queues rfl rfl (fun _ => rfl) inv.created
  | writeNone point => exact inv.kept queues rfl rfl (fun _ => rfl) inv.created

/-- In every run, the frames dequeued from a queue are the first ones of the order of its file. -/
theorem taken_prefix_fileOrder {start s : Delivery} (inv : LineInv start s) {qinfo : QueueInfo}
    (mem : qinfo ∈ s.pm.qinfos) : ofHash qinfo.qid s.taken <+: fileOrder start s qinfo := by
  rw [← inv.known qinfo mem, Delivery.queueOrder, List.append_assoc]
  exact List.prefix_append _ _

end Newtmq
