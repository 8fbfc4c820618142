/-
Module: Newtmq.Proofs.SentIndexOrder
Purpose: The index in memory against the order of the data file. An index that counts the frames in
  the order in which they were dequeued counts a prefix of the file.
Trusted boundary: none
Main exports: DirInv, dirInv_step, CountedIndex, countedIndex_step, CountInv, countInv_step,
  counts_sent_prefix
-/
import Newtmq.Proofs.FileOrder

namespace Newtmq

open KeyedList (map_modify mem_modify)
open Transition (Reaches)

/-! ### Directories -/

/-- The ids of the objects, with their directories. -/
def PersistentManager.dirs (pm : PersistentManager) : List (UInt64 × List UInt8) :=
  pm.qinfos.map fun qinfo => (qinfo.qid, qinfo.dirpath)

/-- Each object has the directory of a queue with its id, and an index is stored only in these
directories. -/
structure DirInv (start pm : PersistentManager) : Prop where
  datadir : pm.datadir = start.datadir
  named : ∀ dir ∈ pm.dirs, ∃ qname, dir = (getHash qname, queueDir start qname)
  untouched : ∀ dirpath, dirpath ∉ pm.dirs.map Prod.snd →
    unpersistQueueInfo dirpath pm = unpersistQueueInfo dirpath start

theorem dirInv_start {start : Delivery} (rested : start.Rested) : DirInv start.pm start.pm where
  datadir := rfl
  named dir mem := by
    obtain ⟨qinfo, memQinfo, rfl⟩ := List.mem_map.mp mem
    obtain ⟨qname, qid, dirpath⟩ := rested.named qinfo memQinfo
    exact ⟨qname, by rw [qid, dirpath]⟩
  untouched _ _ := rfl

/-- A change that concerns neither ids nor directories, and stores an index at most in one of these. -/
theorem DirInv.kept {start pm next : PersistentManager} (inv : DirInv start pm)
    (datadir : next.datadir = pm.datadir) (dirs : next.dirs = pm.dirs)
    (stored : ∀ dirpath, dirpath ∉ pm.dirs.map Prod.snd →
      unpersistQueueInfo dirpath next = unpersistQueueInfo dirpath pm) : DirInv start next where
  datadir := datadir.trans inv.datadir
  named := by
    rw [dirs]
    exact inv.named
  untouched dirpath outside := by
    rw [dirs] at outside
    exact (stored dirpath outside).trans (inv.untouched dirpath outside)

/-- A queue whose hash number no object has gets a directory that no object has. -/
theorem DirInv.fresh {start pm : PersistentManager} (inv : DirInv start pm) {qname : List UInt8}
    (unknown : getQinfo (getHash qname) pm = none) :
    queueDir start qname ∉ pm.dirs.map Prod.snd := by
  intro mem
  obtain ⟨dir, memDir, same⟩ := List.mem_map.mp mem
  obtain ⟨other, rfl⟩ := inv.named dir memDir
  have names : cstr other = cstr qname := List.append_cancel_left same
  obtain ⟨qinfo, memQinfo, entry⟩ := List.mem_map.mp memDir
  apply getQinfo_none.mp unknown
  rw [← getHash_congr names]
  exact List.mem_map.mpr ⟨qinfo, memQinfo, congrArg Prod.fst entry⟩

/-- No two objects have one directory. -/
theorem DirInv.same {start pm : PersistentManager} (inv : DirInv start pm)
    {first second : UInt64 × List UInt8} (memFirst : first ∈ pm.dirs) (memSecond : second ∈ pm.dirs)
    (same : first.2 = second.2) : first = second := by
  obtain ⟨one, rfl⟩ := inv.named first memFirst
  obtain ⟨two, rfl⟩ := inv.named second memSecond
  have names : cstr one = cstr two := List.append_cancel_left same
  exact Prod.ext (getHash_congr names) same

theorem DirInv.createNew {start pm : PersistentManager} (inv : DirInv start pm)
    (qname : List UInt8) :
    DirInv start { (allocQinfo qname pm).2 with
      qinfos := pm.qinfos ++ [(allocQinfo qname pm).1] } where
  datadir := inv.datadir
  named dir mem := by
    rw [PersistentManager.dirs, List.map_append] at mem
    rcases List.mem_append.mp mem with old | last
    · exact inv.named dir old
    · obtain rfl := List.mem_singleton.mp last
      refine ⟨qname, ?_⟩
      rw [queueDir, ← inv.datadir]
      rfl
  untouched dirpath outside := by
    rw [storedIndex_qinfos, (allocQinfo_files qname pm dirpath).2]
    apply inv.untouched
    intro mem
    apply outside
    rw [PersistentManager.dirs, List.map_append, List.map_append]
    exact List.mem_append_left _ mem

theorem dirInv_step {destination : Nat → List UInt8} {start : PersistentManager}
    {s next : Delivery} {action : DeliveryAction} (inv : DirInv start s.pm)
    (taken : deliveryStep destination s action = some next) : DirInv start next.pm := by
  cases deliveryStep_cases taken with
  | createNew point unknown => exact inv.createNew _
  | link point => exact inv.kept rfl (map_modify _ _ fun _ => rfl) fun _ _ => rfl
  | grow point => exact inv.kept rfl (map_modify _ _ fun _ => rfl) fun _ _ => rfl
  | count point known => exact inv.kept rfl (map_modify _ _ fun _ => rfl) fun _ _ => rfl
  | @storeIndex place qinfo point here =>
      refine inv.kept rfl rfl ?_
      intro dirpath outside
      rw [storedIndex_persistQueueInfo, if_neg]
      rintro rfl
      apply outside
      simp only [PersistentManager.dirs, List.map_map, List.mem_map]
      exact ⟨qinfo, List.mem_of_getElem? here, rfl⟩
  | @write place qinfo object rest here pending =>
      refine inv.kept rfl ?_ fun dirpath _ => storedIndex_persistOne object qinfo s.pm dirpath
      rw [PersistentManager.dirs, set_persistOne here]
      exact map_modify _ _ fun _ => rfl
  | _ => exact inv

/-! ### The index in memory -/

/-- Each index is what was stored at the start and the total size of the frames counted since, which
were all dequeued by the worker that counted them. -/
structure CountedIndex (destination : Nat → List UInt8) (start s : Delivery) : Prop where
  hands : ∀ worker object, s.workers worker = .dequeued object ∨ s.workers worker = .sent object →
    (getHash (destination worker), object) ∈ s.taken
  counted : s.counted ⊆ s.taken
  index : ∀ qinfo ∈ s.pm.qinfos, qinfo.indexSent =
    unpersistQueueInfo qinfo.dirpath start.pm + totalSize (ofHash qinfo.qid s.counted)

section Index

variable {destination : Nat → List UInt8} {start s next : Delivery}

theorem countedIndex_start (destination : Nat → List UInt8) (rested : start.Rested) :
    CountedIndex destination start start where
  hands worker object point := by
    rcases point with point | point
    · cases (rested.workers worker).symm.trans point
    · cases (rested.workers worker).symm.trans point
  counted := by
    rw [rested.records.2.2.1]
    exact List.nil_subset _
  index qinfo mem := by
    rw [rested.stored qinfo mem, rested.records.2.2.1]
    simp

/-- A change of one object that concerns neither its index nor its directory. -/
theorem CountedIndex.modify (inv : CountedIndex destination start s)
    (unique : (s.pm.qinfos.map QueueInfo.qid).Nodup) {place : Nat} {f : QueueInfo → QueueInfo}
    (qinfos : next.pm.qinfos = s.pm.qinfos.modify place f) (counted : next.counted = s.counted)
    (same : ∀ qinfo, (f qinfo).qid = qinfo.qid ∧ (f qinfo).dirpath = qinfo.dirpath ∧
      (f qinfo).indexSent = qinfo.indexSent) :
    ∀ qinfo ∈ next.pm.qinfos, qinfo.indexSent =
      unpersistQueueInfo qinfo.dirpath start.pm + totalSize (ofHash qinfo.qid next.counted) := by
  intro qinfo mem
  rw [qinfos] at mem
  rw [counted]
  rcases mem_modify unique mem with ⟨old, here, rfl⟩ | ⟨old, -⟩
  · obtain ⟨qid, dirpath, indexSent⟩ := same old
    rw [qid, dirpath, indexSent]
    exact inv.index old (List.mem_of_getElem? here)
  · exact inv.index qinfo old

/-- The new object of a queue of which no frame has been dequeued has the index stored at the start. -/
theorem CountedIndex.createNew (inv : CountedIndex destination start s) (line : LineInv start s)
    (dirs : DirInv start.pm s.pm) {qname : List UInt8}
    (unknown : getQinfo (getHash qname) s.pm = none)
    (qinfos : next.pm.qinfos = s.pm.qinfos ++ [(allocQinfo qname s.pm).1])
    (counted : next.counted = s.counted) :
    ∀ qinfo ∈ next.pm.qinfos, qinfo.indexSent =
      unpersistQueueInfo qinfo.dirpath start.pm + totalSize (ofHash qinfo.qid next.counted) := by
  intro qinfo mem
  rw [qinfos] at mem
  rw [counted]
  rcases List.mem_append.mp mem with old | last
  · exact inv.index qinfo old
  · obtain rfl := List.mem_singleton.mp last
    obtain ⟨qid, dirpath, -, indexSent⟩ := allocQinfo_fields qname s.pm
    obtain ⟨noneTaken, -⟩ := List.append_eq_nil_iff.mp
      (List.append_eq_nil_iff.mp (line.unknown _ unknown).1).1
    have noneCounted : ofHash (getHash qname) s.counted = [] := by
      rw [List.eq_nil_iff_forall_not_mem]
      intro object found
      have dequeued := inv.counted (mem_ofHash found)
      have listed : object ∈ ofHash (getHash qname) s.taken := mem_ofHash_iff.mpr dequeued
      rw [noneTaken] at listed
      cases listed
    have directory : queueDir s.pm qname = queueDir start.pm qname := by
      rw [queueDir, queueDir, dirs.datadir]
    rw [qid, dirpath, indexSent, noneCounted, directory, dirs.untouched _ (dirs.fresh unknown)]
    simp

/-- Counting a frame. -/
theorem CountedIndex.count (inv : CountedIndex destination start s) (line : LineInv start s)
    {hashnum : UInt64} {object : FrameObject} {place : Nat}
    (known : getQinfo hashnum s.pm = some place)
    (qinfos : next.pm.qinfos = s.pm.qinfos.modify place fun qinfo =>
      { qinfo with indexSent := qinfo.indexSent + object.frame.size })
    (counted : next.counted = s.counted ++ [(hashnum, object)]) :
    ∀ qinfo ∈ next.pm.qinfos, qinfo.indexSent =
      unpersistQueueInfo qinfo.dirpath start.pm + totalSize (ofHash qinfo.qid next.counted) := by
  obtain ⟨target, there, qid⟩ := getQinfo_some known
  intro qinfo mem
  rw [qinfos] at mem
  rw [counted, ofHash_append, ofHash_singleton]
  rcases mem_modify line.ids mem with ⟨old, here, rfl⟩ | ⟨old, other⟩
  · obtain rfl : target = old := by simpa [there] using here
    have before := inv.index target (List.mem_of_getElem? here)
    rw [if_pos qid.symm, totalSize_append, totalSize_singleton, before, Int.add_assoc]
  · have apart : hashnum ≠ qinfo.qid := by
      rw [← qid]
      exact (other target there).symm
    rw [if_neg apart, List.append_nil]
    exact inv.index qinfo old

theorem countedIndex_step {action : DeliveryAction} (line : LineInv start s) (dirs : DirInv start.pm s.pm)
    (inv : CountedIndex destination start s)
    (taken : deliveryStep destination s action = some next) : CountedIndex destination start next := by
  have step := deliveryStep_cases taken
  constructor
  case hands =>
    intro worker object point
    obtain ⟨more, dequeued, sent⟩ := deliveryStep_workers step worker
    have before : s.workers worker = .dequeued object ∨ s.workers worker = .sent object →
        (getHash (destination worker), object) ∈ next.taken :=
      fun point => more (inv.hands worker object point)
    rcases point with point | point
    · rcases dequeued object point with old | ⟨-, now⟩
      · exact before (Or.inl old)
      · exact now
    · rcases sent object point with old | old
      · exact before (Or.inr old)
      · exact before (Or.inl old)
  case counted =>
    cases step with
    | @count worker object place point known =>
        intro entry mem
        rcases List.mem_append.mp mem with old | new
        · exact inv.counted old
        · rw [List.mem_singleton.mp new]
          exact inv.hands worker object (Or.inr point)
    | dequeueSome point got => exact fun entry mem => List.mem_append_left _ (inv.counted mem)
    | _ => exact inv.counted
  case index =>
    cases step with
    | createNew point unknown => exact inv.createNew line dirs unknown rfl rfl
    | link point => exact inv.modify line.ids rfl rfl fun _ => ⟨rfl, rfl, rfl⟩
    | grow point => exact inv.modify line.ids rfl rfl fun _ => ⟨rfl, rfl, rfl⟩
    | count point known => exact inv.count line known rfl rfl
    | write here pending =>
        exact inv.modify line.ids (set_persistOne here _) rfl fun _ => ⟨rfl, rfl, rfl⟩
    | _ => exact inv.index

end Index

/-! ### Counting in order -/

/-- What is counted are the first frames dequeued from each queue, and they were sent. -/
structure CountInv (s : Delivery) : Prop where
  first : ∀ hashnum, ofHash hashnum s.counted <+: ofHash hashnum s.taken
  sending : ∀ worker object, s.workers worker = .sent object → object ∈ s.sent
  sent : ∀ entry ∈ s.counted, entry.2 ∈ s.sent

theorem countInv_start {start : Delivery} (rested : start.Rested) : CountInv start where
  first hashnum := by
    rw [rested.records.2.2.1, ofHash_nil]
    exact List.nil_prefix
  sending worker object point := by
    rw [rested.workers worker] at point
    cases point
  sent entry mem := by
    rw [rested.records.2.2.1] at mem
    cases mem

/-- A worker that becomes idle, or takes a frame, has nothing to count. -/
theorem sending_setWorker {s : Delivery} {sent : List FrameObject}
    (sending : ∀ worker object, s.workers worker = .sent object → object ∈ sent) {worker : Nat}
    {point : WorkerPoint} (idle : ∀ object, point = .sent object → object ∈ sent) :
    ∀ other object, (s.setWorker worker point).workers other = .sent object → object ∈ sent := by
  intro other object found
  simp only [Delivery.setWorker, Function.update_apply] at found
  split at found
  · exact idle object found
  · exact sending other object found

theorem countInv_step {destination : Nat → List UInt8} {s next : Delivery}
    {action : DeliveryAction} (inv : CountInv s) (allowed : CountsInOrder destination s action)
    (taken : deliveryStep destination s action = some next) : CountInv next := by
  cases deliveryStep_cases taken with
  | dequeueSome point got =>
      refine ⟨?_, ?_, inv.sent⟩
      · intro hashnum
        change _ <+: ofHash hashnum (s.taken ++ _)
        rw [ofHash_append]
        exact (inv.first hashnum).trans (List.prefix_append _ _)
      · apply sending_setWorker inv.sending
        intro _ found
        cases found
  | @send worker object point =>
      refine ⟨inv.first, ?_, ?_⟩
      · apply sending_setWorker
        · intro other waiting found
          exact List.mem_append_left _ (inv.sending other waiting found)
        · intro _ found
          cases found
          exact List.mem_append_right _ (List.mem_singleton_self _)
      · intro entry mem
        exact List.mem_append_left _ (inv.sent entry mem)
  | @count worker object place point known =>
      rw [CountsInOrder, point] at allowed
      have first : ofHash (getHash (destination worker)) s.counted ++ [object] <+:
          ofHash (getHash (destination worker)) s.taken := allowed
      constructor
      case first =>
        intro other
        change ofHash other (s.counted ++ [(getHash (destination worker), object)]) <+:
          ofHash other s.taken
        rw [ofHash_append, ofHash_singleton]
        by_cases same : getHash (destination worker) = other
        · subst same
          simpa using first
        · simpa [same] using inv.first other
      case sending =>
        apply sending_setWorker inv.sending
        intro _ found
        cases found
      case sent =>
        intro entry mem
        rcases List.mem_append.mp mem with before | new
        · exact inv.sent entry before
        · obtain rfl := List.mem_singleton.mp new
          exact inv.sending worker object point
  | countNone point =>
      refine ⟨inv.first, ?_, inv.sent⟩
      apply sending_setWorker inv.sending
      intro _ found
      cases found
  | _ => exact ⟨inv.first, inv.sending, inv.sent⟩

/-! ### Runs -/

/-- What is counted is a prefix of the order of the file. -/
theorem CountInv.countsSentPrefix {destination : Nat → List UInt8} {start s : Delivery}
    (inv : CountInv s) (line : LineInv start s) (index : CountedIndex destination start s) :
    CountsSentPrefix start s := by
  intro qinfo mem
  have counted := (inv.first qinfo.qid).trans (taken_prefix_fileOrder line mem)
  refine ⟨(ofHash qinfo.qid s.counted).length, ?_, ?_⟩
  · rw [← List.prefix_iff_eq_take.mp counted]
    exact index.index qinfo mem
  · rw [← List.prefix_iff_eq_take.mp counted]
    intro object memObject
    exact inv.sent _ (mem_ofHash memObject)

/-- In every run in which the frames of a queue are counted in the order in which they were dequeued,
each index counts a prefix of the file, all of whose frames have been sent. -/
theorem counts_sent_prefix {destination : Nat → List UInt8} {start s : Delivery}
    (rested : start.Rested)
    (reached : Reaches (deliveryStep destination) (CountsInOrder destination) start s) :
    CountsSentPrefix start s := by
  have all : LineInv start s ∧ DirInv start.pm s.pm ∧ CountedIndex destination start s ∧ CountInv s := by
    apply reached.invariant
    · rintro s action next ⟨line, dirs, index, count⟩ allowed taken
      exact ⟨lineInv_step line taken, dirInv_step dirs taken, countedIndex_step line dirs index taken,
        countInv_step count allowed taken⟩
    · exact ⟨lineInv_start rested, dirInv_start rested, countedIndex_start _ rested,
        countInv_start rested⟩
  obtain ⟨line, _, index, count⟩ := all
  exact count.countsSentPrefix line index

/-- What `recv_data` makes of a `SEND` frame with the body `ab`. -/
def letterAB : FrameObject where
  address := 1
  frame :=
    { letterA.frame with
      contentlen := 2
      hasContentlen := 2
      hAttrs := [⟨cstring "destination:q", 13⟩, ⟨cstring "content-length:2", 16⟩]
      hData := [⟨cstring "ab", 2⟩]
      size := 40 }

/-- The steps that persist two frames and have two workers dequeue them, the first one first. -/
def takeLetters : List DeliveryAction :=
  [.accept (cstring "q") letterA, .create, .link, .grow, .enqueue,
    .accept (cstring "q") letterAB, .create, .link, .grow, .enqueue, .dequeue 0, .dequeue 1]

theorem counts_sent_prefix_letters :
    ∃ s, Transition.run
        (Transition.guarded (deliveryStep fun _ => cstring "q")
          (CountsInOrder fun _ => cstring "q"))
        (Delivery.init (cstring "data"))
        (takeLetters ++ [.send 1, .send 0, .count 0, .count 1]) = some s ∧
      s.pm.qinfos.map QueueInfo.indexSent = [79] ∧
      CountsSentPrefix (Delivery.init (cstring "data")) s := by
  have taken : ∃ s, Transition.run
        (Transition.guarded (deliveryStep fun _ => cstring "q")
          (CountsInOrder fun _ => cstring "q"))
        (Delivery.init (cstring "data"))
        (takeLetters ++ [.send 1, .send 0, .count 0, .count 1]) = some s ∧
      s.pm.qinfos.map QueueInfo.indexSent = [79] := by
    apply Option.map_eq_some_iff.mp
    decide +kernel
  obtain ⟨s, taken, counted⟩ := taken
  exact ⟨s, taken, counted,
    counts_sent_prefix (init_rested _) (Transition.reaches_of_guarded_run taken)⟩

/-- The worker that took the second frame can send and count it while the first one is in flight. -/
theorem counts_unsent_gap :
    ¬ ∀ s, Reaches (deliveryStep fun _ => cstring "q") AcceptsExactSizes
      (Delivery.init (cstring "data")) s →
        CountsSentPrefix (Delivery.init (cstring "data")) s := by
  intro always
  have taken : ∃ s, Transition.run
        (Transition.guarded (deliveryStep fun _ => cstring "q") AcceptsExactSizes)
        (Delivery.init (cstring "data")) (takeLetters ++ [.send 1, .count 1]) = some s ∧
      (s.pm.qinfos.map fun qinfo =>
        (qinfo.indexSent, fileOrder (Delivery.init (cstring "data")) s qinfo)) =
          [(40, [letterA, letterAB])] := by
    apply Option.map_eq_some_iff.mp
    decide +kernel
  obtain ⟨s, taken, indexes⟩ := taken
  obtain ⟨qinfo, only, index⟩ := List.map_eq_singleton_iff.mp indexes
  obtain ⟨counted, order⟩ := Prod.mk.inj index
  have kept := always s (Transition.reaches_of_guarded_run taken) qinfo (by simp [only])
  obtain ⟨n, total, -⟩ := kept
  have stored : unpersistQueueInfo qinfo.dirpath (Delivery.init (cstring "data")).pm = 0 := rfl
  rw [counted, order, stored] at total
  match n with
  | 0 => exact absurd total (by decide)
  | 1 => exact absurd total (by decide)
  | n + 2 =>
      rw [List.take_of_length_le (by simp)] at total
      exact absurd total (by decide)

end Newtmq
