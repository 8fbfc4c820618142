/-
Module: Newtmq.Proofs.DeliverySteps
Purpose: What each step of the delivering threads does, said once, and what the steps do to the
  `queue_info` objects and to the files. The invariants of the runs are derived from these facts.
Trusted boundary: none
Main exports: DeliveryStep, deliveryStep_cases, WorkerMove, deliveryStep_move, deliveryStep_workers,
  dataFile_persistOne, storedIndex_persistQueueInfo, allocQinfo_files, getQinfo_some, getQinfo_none,
  init_rested, letterA
-/
import Newtmq.Library.Transition
import Newtmq.Library.KeyedList
import Newtmq.Core.Delivery
import Newtmq.Proofs.QueueMap
import Newtmq.Spec.SentIndex

namespace Newtmq

open KeyedList (map_modify)

/-! ### The steps -/

/-- The outcomes of a step. -/
inductive DeliveryStep (destination : Nat → List UInt8) (s : Delivery) :
    DeliveryAction → Delivery → Prop where
  | accept {qname : List UInt8} {object : FrameObject} (point : s.handler = .idle) :
      DeliveryStep destination s (.accept qname object)
        { s with handler := .accepted qname object }
  | createKnown {qname : List UInt8} {object : FrameObject} {place : Nat}
      (point : s.handler = .accepted qname object)
      (known : getQinfo (getHash qname) s.pm = some place) :
      DeliveryStep destination s .create { s with handler := .created qname object place }
  | createNew {qname : List UInt8} {object : FrameObject}
      (point : s.handler = .accepted qname object)
      (unknown : getQinfo (getHash qname) s.pm = none) :
      DeliveryStep destination s .create
        { s with
          pm := { (allocQinfo qname s.pm).2 with
            qinfos := s.pm.qinfos ++ [(allocQinfo qname s.pm).1] }
          handler := .created qname object s.pm.qinfos.length }
  | link {qname : List UInt8} {object : FrameObject} {place : Nat}
      (point : s.handler = .created qname object place) :
      DeliveryStep destination s .link
        { s with pm := addFrameIntoQinfo place object s.pm, handler := .linked qname object place }
  | grow {qname : List UInt8} {object : FrameObject} {place : Nat}
      (point : s.handler = .linked qname object place) :
      DeliveryStep destination s .grow
        { s with pm := growIndexHead place object s.pm, handler := .persisted qname object }
  | enqueue {qname : List UInt8} {object : FrameObject}
      (point : s.handler = .persisted qname object) :
      DeliveryStep destination s .enqueue
        { s with queues := (Newtmq.enqueue (some object) qname s.queues).2, handler := .idle }
  | dequeueNone {worker : Nat} {queues : QueueStore FrameObject}
      (got : dequeue (destination worker) s.queues = (none, queues)) :
      DeliveryStep destination s (.dequeue worker) { s with queues := queues }
  | dequeueSome {worker : Nat} {object : FrameObject} {queues : QueueStore FrameObject}
      (point : s.workers worker = .idle)
      (got : dequeue (destination worker) s.queues = (some object, queues)) :
      DeliveryStep destination s (.dequeue worker)
        ({ s with
          queues := queues
          taken := s.taken ++ [(getHash (destination worker), object)] }.setWorker worker
            (.dequeued object))
  | send {worker : Nat} {object : FrameObject} (point : s.workers worker = .dequeued object) :
      DeliveryStep destination s (.send worker)
        ({ s with sent := s.sent ++ [object] }.setWorker worker (.sent object))
  | count {worker : Nat} {object : FrameObject} {place : Nat}
      (point : s.workers worker = .sent object)
      (known : getQinfo (getHash (destination worker)) s.pm = some place) :
      DeliveryStep destination s (.count worker)
        ({ s with
          pm := { s.pm with
            qinfos := s.pm.qinfos.modify place fun qinfo =>
              { qinfo with indexSent := qinfo.indexSent + object.frame.size } }
          counted := s.counted ++ [(getHash (destination worker), object)] }.setWorker worker .idle)
  | countNone {worker : Nat} {object : FrameObject} (point : s.workers worker = .sent object) :
      DeliveryStep destination s (.count worker) (s.setWorker worker .idle)
  | enter : DeliveryStep destination s .enter { s with flusher := .store 0 }
  | storeIndex {place : Nat} {qinfo : QueueInfo} (point : s.flusher = .store place)
      (here : s.pm.qinfos[place]? = some qinfo) :
      DeliveryStep destination s .storeIndex
        { s with pm := persistQueueInfo qinfo s.pm, flusher := .compare place }
  | compare (point : FlusherPoint) :
      DeliveryStep destination s .compare { s with flusher := point }
  | write {place : Nat} {qinfo : QueueInfo} {object : FrameObject} {rest : List FrameObject}
      (here : s.pm.qinfos[place]? = some qinfo) (pending : qinfo.unpersistent = object :: rest) :
      DeliveryStep destination s .write
        { s with
          pm := { (persistOne object qinfo s.pm).2 with
            qinfos := s.pm.qinfos.set place (persistOne object qinfo s.pm).1 }
          written := s.written ++ [(qinfo.qid, object)] }
  | writeNone (point : FlusherPoint) :
      DeliveryStep destination s .write { s with flusher := point }

/-- Every step has one of these outcomes. -/
theorem deliveryStep_cases {destination : Nat → List UInt8} {s next : Delivery}
    {action : DeliveryAction} (taken : deliveryStep destination s action = some next) :
    DeliveryStep destination s action next := by
  cases action with
  | accept qname object =>
      simp only [deliveryStep] at taken
      split at taken <;> cases taken
      next point => exact .accept point
  | create =>
      simp only [deliveryStep] at taken
      split at taken
      next qname object point =>
        split at taken
        · cases taken
          cases known : getQinfo (getHash qname) s.pm with
          | some place =>
              rw [createQinfo, known]
              exact .createKnown point known
          | none =>
              rw [createQinfo, known]
              exact .createNew point known
        · cases taken
      · cases taken
  | link =>
      simp only [deliveryStep] at taken
      split at taken
      next qname object place point =>
        split at taken <;> cases taken
        exact .link point
      · cases taken
  | grow =>
      simp only [deliveryStep] at taken
      split at taken <;> cases taken
      next point => exact .grow point
  | enqueue =>
      simp only [deliveryStep] at taken
      split at taken <;> cases taken
      next point => exact .enqueue point
  | dequeue worker =>
      simp only [deliveryStep] at taken
      split at taken
      next point =>
        split at taken <;> cases taken
        next got => exact .dequeueNone got
        next got => exact .dequeueSome point got
      · cases taken
  | send worker =>
      simp only [deliveryStep] at taken
      split at taken <;> cases taken
      next point => exact .send point
  | count worker =>
      simp only [deliveryStep] at taken
      split at taken
      next object point =>
        cases known : getQinfo (getHash (destination worker)) s.pm with
        | some place =>
            simp only [updateIndexSent, known] at taken
            cases taken
            exact .count point known
        | none =>
            simp only [updateIndexSent, known] at taken
            cases taken
            exact .countNone point
      · cases taken
  | enter =>
      simp only [deliveryStep] at taken
      split at taken
      · split at taken <;> cases taken
        exact .enter
      · cases taken
  | storeIndex =>
      simp only [deliveryStep] at taken
      split at taken
      next place point =>
        obtain ⟨qinfo, here, rfl⟩ := Option.map_eq_some_iff.mp taken
        exact .storeIndex point here
      · cases taken
  | compare =>
      simp only [deliveryStep] at taken
      split at taken
      next place point =>
        obtain ⟨qinfo, here, rfl⟩ := Option.map_eq_some_iff.mp taken
        exact .compare _
      · cases taken
  | write =>
      simp only [deliveryStep] at taken
      split at taken
      next place point =>
        obtain ⟨qinfo, here, rfl⟩ := Option.map_eq_some_iff.mp taken
        cases pending : qinfo.unpersistent with
        | nil => exact .writeNone _
        | cons object rest => exact .write here pending
      · cases taken

/-! ### The workers -/

/-- What a step does to the workers and to the records of what they have dequeued and counted. -/
inductive WorkerMove (destination : Nat → List UInt8) (s next : Delivery) : DeliveryAction → Prop where
  | other {action : DeliveryAction} (silent : ∀ worker, action ≠ .send worker)
      (workers : next.workers = s.workers) (taken : next.taken = s.taken)
      (counted : next.counted = s.counted) : WorkerMove destination s next action
  | dequeue {worker : Nat} {object : FrameObject} (point : s.workers worker = .idle)
      (workers : next.workers = Function.update s.workers worker (.dequeued object))
      (taken : next.taken = s.taken ++ [(getHash (destination worker), object)])
      (counted : next.counted = s.counted) : WorkerMove destination s next (.dequeue worker)
  | send {worker : Nat} {object : FrameObject} (point : s.workers worker = .dequeued object)
      (workers : next.workers = Function.update s.workers worker (.sent object))
      (taken : next.taken = s.taken) (counted : next.counted = s.counted) :
      WorkerMove destination s next (.send worker)
  | count {worker : Nat} {object : FrameObject} (point : s.workers worker = .sent object)
      (workers : next.workers = Function.update s.workers worker .idle)
      (taken : next.taken = s.taken)
      (counted : next.counted = s.counted ++ [(getHash (destination worker), object)] ∨
        next.counted = s.counted) : WorkerMove destination s next (.count worker)

theorem deliveryStep_move {destination : Nat → List UInt8} {s next : Delivery} {action : DeliveryAction}
    (step : DeliveryStep destination s action next) : WorkerMove destination s next action := by
  cases step with
  | dequeueSome point got => exact .dequeue point rfl rfl rfl
  | send point => exact .send point rfl rfl rfl
  | count point known => exact .count point rfl rfl (.inl rfl)
  | countNone point => exact .count point rfl rfl (.inr rfl)
  | accept point => exact .other nofun rfl rfl rfl
  | createKnown point known => exact .other nofun rfl rfl rfl
  | createNew point unknown => exact .other nofun rfl rfl rfl
  | link point => exact .other nofun rfl rfl rfl
  | grow point => exact .other nofun rfl rfl rfl
  | enqueue point => exact .other nofun rfl rfl rfl
  | dequeueNone got => exact .other nofun rfl rfl rfl
  | enter => exact .other nofun rfl rfl rfl
  | storeIndex point here => exact .other nofun rfl rfl rfl
  | compare point => exact .other nofun rfl rfl rfl
  | write here pending => exact .other nofun rfl rfl rfl
  | writeNone point => exact .other nofun rfl rfl rfl

theorem updated_or_old {points : Nat → WorkerPoint} {worker other : Nat} {point found : WorkerPoint}
    (here : Function.update points other point worker = found) :
    (worker = other ∧ point = found) ∨ points worker = found := by
  by_cases same : worker = other
  · rw [same, Function.update_self] at here
    exact Or.inl ⟨same, here⟩
  · rw [Function.update_of_ne same] at here
    exact Or.inr here

/-- What a step does to the frames that workers have in hand. -/
theorem deliveryStep_workers {destination : Nat → List UInt8} {s next : Delivery}
    {action : DeliveryAction} (step : DeliveryStep destination s action next) (worker : Nat) :
    s.taken ⊆ next.taken ∧
      (∀ object, next.workers worker = .dequeued object → s.workers worker = .dequeued object ∨
        action = .dequeue worker ∧ (getHash (destination worker), object) ∈ next.taken) ∧
      ∀ object, next.workers worker = .sent object →
        s.workers worker = .sent object ∨ s.workers worker = .dequeued object := by
  cases deliveryStep_move step with
  | other silent workers taken counted =>
      rw [taken, workers]
      exact ⟨fun _ mem => mem, fun _ => Or.inl, fun _ => Or.inl⟩
  | dequeue point workers taken counted =>
      rw [taken, workers]
      refine ⟨List.subset_append_left _ _, fun object here => ?_, fun object here => ?_⟩
      · rcases updated_or_old here with ⟨rfl, ⟨⟩⟩ | old
        · exact Or.inr ⟨rfl, List.mem_append_right _ List.mem_cons_self⟩
        · exact Or.inl old
      · rcases updated_or_old here with ⟨_, ⟨⟩⟩ | old
        exact Or.inl old
  | send point workers taken counted =>
      rw [taken, workers]
      refine ⟨fun _ mem => mem, fun object here => ?_, fun object here => ?_⟩
      · rcases updated_or_old here with ⟨_, ⟨⟩⟩ | old
        exact Or.inl old
      · rcases updated_or_old here with ⟨rfl, ⟨⟩⟩ | old
        · exact Or.inr point
        · exact Or.inl old
  | count point workers taken counted =>
      rw [taken, workers]
      refine ⟨fun _ mem => mem, fun object here => ?_, fun object here => ?_⟩
      · rcases updated_or_old here with ⟨_, ⟨⟩⟩ | old
        exact Or.inl old
      · rcases updated_or_old here with ⟨_, ⟨⟩⟩ | old
        exact Or.inl old

/-! ### The files -/

theorem files_setFiles (pm : PersistentManager) (dirpath other : List UInt8) (files : QueueFiles) :
    (pm.setFiles dirpath files).files other = if other = dirpath then files else pm.files other := by
  by_cases same : other = dirpath
  · subst same
    simp [PersistentManager.setFiles, PersistentManager.files]
  · simp [PersistentManager.setFiles, PersistentManager.files, same]

/-- The list of `queue_info` objects does not matter for the files. -/
@[simp] theorem dataFile_qinfos (pm : PersistentManager) (qinfos : List QueueInfo)
    (dirpath : List UInt8) :
    PersistentManager.dataFile { pm with qinfos := qinfos } dirpath = pm.dataFile dirpath := rfl

@[simp] theorem storedIndex_qinfos (pm : PersistentManager) (qinfos : List QueueInfo)
    (dirpath : List UInt8) :
    unpersistQueueInfo dirpath { pm with qinfos := qinfos } = unpersistQueueInfo dirpath pm := rfl

@[simp] theorem dataFile_persistQueueInfo (qinfo : QueueInfo) (pm : PersistentManager)
    (dirpath : List UInt8) : (persistQueueInfo qinfo pm).dataFile dirpath = pm.dataFile dirpath := by
  rw [PersistentManager.dataFile, persistQueueInfo, files_setFiles]
  split
  next same => rw [same]; rfl
  · rfl

theorem storedIndex_persistQueueInfo (qinfo : QueueInfo) (pm : PersistentManager)
    (dirpath : List UInt8) :
    unpersistQueueInfo dirpath (persistQueueInfo qinfo pm) =
      if dirpath = qinfo.dirpath then qinfo.indexSent else unpersistQueueInfo dirpath pm := by
  rw [unpersistQueueInfo, persistQueueInfo, files_setFiles]
  split <;> rfl

/-- `alloc_qinfo` leaves both files of every directory as they are. -/
theorem allocQinfo_files (qname : List UInt8) (pm : PersistentManager) (dirpath : List UInt8) :
    (allocQinfo qname pm).2.dataFile dirpath = pm.dataFile dirpath ∧
      unpersistQueueInfo dirpath (allocQinfo qname pm).2 = unpersistQueueInfo dirpath pm := by
  have same : ∀ other, (pm.setFiles (queueDir pm qname) (pm.files (queueDir pm qname))).files other =
      pm.files other := by
    intro other
    rw [files_setFiles]
    split
    next eq => rw [eq]
    · rfl
  constructor
  · rw [allocQinfo, dataFile_persistQueueInfo, PersistentManager.dataFile]
    exact congrArg QueueFiles.data (same dirpath)
  · have stored : (allocQinfo qname pm).2 = persistQueueInfo (allocQinfo qname pm).1
        (pm.setFiles (queueDir pm qname) (pm.files (queueDir pm qname))) := rfl
    have dir : (allocQinfo qname pm).1.dirpath = queueDir pm qname := rfl
    rw [stored, storedIndex_persistQueueInfo, dir]
    split
    next eq => rw [eq]; rfl
    · rw [unpersistQueueInfo, unpersistQueueInfo]
      exact congrArg (fun files => files.sentIndex.getD 0) (same dirpath)

/-- What `alloc_qinfo` puts into the new object. -/
theorem allocQinfo_fields (qname : List UInt8) (pm : PersistentManager) :
    (allocQinfo qname pm).1.qid = getHash qname ∧
      (allocQinfo qname pm).1.dirpath = queueDir pm qname ∧
      (allocQinfo qname pm).1.unpersistent = [] ∧
      (allocQinfo qname pm).1.indexSent = unpersistQueueInfo (queueDir pm qname) pm :=
  ⟨rfl, rfl, rfl, rfl⟩

theorem dataFile_persistOne (object : FrameObject) (qinfo : QueueInfo) (pm : PersistentManager)
    (dirpath : List UInt8) :
    (persistOne object qinfo pm).2.dataFile dirpath =
      if dirpath = qinfo.dirpath then pm.dataFile dirpath ++ frameBytes object.frame
      else pm.dataFile dirpath := by
  rw [PersistentManager.dataFile, persistOne, files_setFiles]
  split
  next same => rw [same]; rfl
  · rfl

@[simp] theorem storedIndex_persistOne (object : FrameObject) (qinfo : QueueInfo)
    (pm : PersistentManager) (dirpath : List UInt8) :
    unpersistQueueInfo dirpath (persistOne object qinfo pm).2 = unpersistQueueInfo dirpath pm := by
  rw [unpersistQueueInfo, persistOne, files_setFiles]
  split
  next same => rw [same]; rfl
  · rfl

/-! ### The list of `queue_info` objects -/

theorem getQinfo_some {hashnum : UInt64} {pm : PersistentManager} {place : Nat}
    (found : getQinfo hashnum pm = some place) :
    ∃ qinfo, pm.qinfos[place]? = some qinfo ∧ qinfo.qid = hashnum := by
  obtain ⟨qinfo, here, holds⟩ := lastMatch_some found
  exact ⟨qinfo, here, by simpa using holds⟩

theorem getQinfo_none {hashnum : UInt64} {pm : PersistentManager} :
    getQinfo hashnum pm = none ↔ hashnum ∉ pm.qinfos.map QueueInfo.qid := by
  rw [getQinfo, lastMatch_none]
  simp

theorem getQinfo_none_modify {pm pm' : PersistentManager} {place : Nat} {f : QueueInfo → QueueInfo}
    (list : pm'.qinfos = pm.qinfos.modify place f) (same : ∀ qinfo, (f qinfo).qid = qinfo.qid)
    {hashnum : UInt64} : getQinfo hashnum pm' = none ↔ getQinfo hashnum pm = none := by
  rw [getQinfo_none, getQinfo_none, list, map_modify QueueInfo.qid place same]

/-- An id that no object has after the change is none of the objects' before. -/
theorem getQinfo_none_apart {pm pm' : PersistentManager} {place : Nat} {f : QueueInfo → QueueInfo}
    (list : pm'.qinfos = pm.qinfos.modify place f) (same : ∀ qinfo, (f qinfo).qid = qinfo.qid)
    {hashnum : UInt64} (none : getQinfo hashnum pm' = none) :
    getQinfo hashnum pm = .none ∧ ∀ qinfo ∈ pm.qinfos, qinfo.qid ≠ hashnum := by
  have absent := (getQinfo_none_modify list same).mp none
  refine ⟨absent, ?_⟩
  rintro qinfo mem rfl
  exact getQinfo_none.mp absent (List.mem_map.mpr ⟨qinfo, mem, rfl⟩)

/-- Writing a frame changes two fields of one object. -/
theorem set_persistOne {pm : PersistentManager} {place : Nat} {qinfo : QueueInfo}
    (here : pm.qinfos[place]? = some qinfo) (object : FrameObject) :
    pm.qinfos.set place (persistOne object qinfo pm).1 =
      pm.qinfos.modify place fun old =>
        { old with
          unpersistent := old.unpersistent.tail
          indexPersistent := old.indexPersistent + object.frame.size } := by
  apply List.ext_getElem?
  intro i
  rw [List.getElem?_set, List.getElem?_modify]
  by_cases same : place = i
  · subst same
    obtain ⟨inside, found⟩ := List.getElem?_eq_some_iff.mp here
    simp [inside, found, persistOne]
  · cases pm.qinfos[i]? <;> simp [same]

/-! ### A new data directory -/

theorem contents_init (datadir : List UInt8) (hashnum : UInt64) :
    contents hashnum (Delivery.init datadir).queues = [] := rfl

theorem init_rested (datadir : List UInt8) : (Delivery.init datadir).Rested where
  handler := rfl
  workers _ := rfl
  records := ⟨rfl, rfl, rfl, rfl⟩
  queues := emptyStore_wellFormed
  ids := List.nodup_nil
  named _ mem := by cases mem
  pending _ mem := by cases mem
  stored _ mem := by cases mem
  known hashnum _ := contents_init datadir hashnum

theorem init_fitsFiles (datadir : List UInt8) : (Delivery.init datadir).FitsFiles where
  stored _ := Int.le_refl 0
  recovered _ mem := by cases mem
  sizes hashnum object mem := by
    rw [contents_init] at mem
    cases mem

/-- What `recv_data` makes of a `SEND` frame with the body `a`. -/
def letterA : FrameObject where
  address := 0
  frame :=
    { allocFrame with
      name := cstring "SEND"
      sock := 3
      status := .inBucket
      contentlen := 1
      hasContentlen := 1
      hAttrs := [⟨cstring "destination:q", 13⟩, ⟨cstring "content-length:1", 16⟩]
      hData := [⟨cstring "a", 1⟩]
      size := 39 }

end Newtmq
