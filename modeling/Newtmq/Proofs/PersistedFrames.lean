/-
Module: Newtmq.Proofs.PersistedFrames
Purpose: The data file of a queue and the frames that wait for it are the frames of the queue, in every
  run. What waits when the server is stopped is lost.
Trusted boundary: none
Main exports: file_is_queue, FileInv, persisted_eq, cleanup_files, clean_stop_iff
-/
import Newtmq.Proofs.SentIndexOrder
import Newtmq.Spec.PersistedFrames

namespace Newtmq

open KeyedList (map_modify)
open Transition (Reaches Always noting)

variable {destination : Nat → List UInt8} {start s : Delivery}

/-! ### While the server runs -/

/-- Each data file has grown by the frames written, and no other file has changed. -/
structure FileInv (start s : Delivery) : Prop where
  known : ∀ dir ∈ s.pm.dirs, s.pm.dataFile dir.2 =
    start.pm.dataFile dir.2 ++ framesBytes (ofHash dir.1 s.written)
  unknown : ∀ dirpath, dirpath ∉ s.pm.dirs.map Prod.snd →
    s.pm.dataFile dirpath = start.pm.dataFile dirpath

theorem fileInv_start (rested : start.Rested) : FileInv start start where
  known dir _ := by
    rw [rested.records.2.2.2]
    exact (List.append_nil _).symm
  unknown _ _ := rfl

/-- A step that writes no frame and makes no object. -/
theorem FileInv.kept {next : Delivery} (inv : FileInv start s) (dirs : next.pm.dirs = s.pm.dirs)
    (files : ∀ dirpath, next.pm.dataFile dirpath = s.pm.dataFile dirpath)
    (written : next.written = s.written) : FileInv start next where
  known dir mem := by
    rw [dirs] at mem
    rw [files, written]
    exact inv.known dir mem
  unknown dirpath outside := by
    rw [dirs] at outside
    rw [files]
    exact inv.unknown dirpath outside

/-- A new object is made for a directory whose data file is as it was at the start. -/
theorem FileInv.createNew (inv : FileInv start s) (line : LineInv start s)
    (dirInv : DirInv start.pm s.pm) {qname : List UInt8} {point : HandlerPoint}
    (unknown : getQinfo (getHash qname) s.pm = none) :
    FileInv start { s with
      pm := { (allocQinfo qname s.pm).2 with
        qinfos := s.pm.qinfos ++ [(allocQinfo qname s.pm).1] }
      handler := point } := by
  have files : ∀ dirpath, PersistentManager.dataFile { (allocQinfo qname s.pm).2 with
      qinfos := s.pm.qinfos ++ [(allocQinfo qname s.pm).1] } dirpath = s.pm.dataFile dirpath :=
    fun dirpath => (allocQinfo_files qname s.pm dirpath).1
  have dirs : PersistentManager.dirs { (allocQinfo qname s.pm).2 with
      qinfos := s.pm.qinfos ++ [(allocQinfo qname s.pm).1] } =
      s.pm.dirs ++ [(getHash qname, queueDir s.pm qname)] := by
    rw [PersistentManager.dirs, List.map_append]
    rfl
  constructor
  · intro dir mem
    rw [dirs] at mem
    rw [files]
    rcases List.mem_append.mp mem with old | new
    · exact inv.known dir old
    · rw [List.mem_singleton.mp new]
      have fresh : queueDir s.pm qname ∉ s.pm.dirs.map Prod.snd := by
        rw [queueDir, dirInv.datadir]
        exact dirInv.fresh unknown
      rw [inv.unknown _ fresh, (line.unknown _ unknown).2.2]
      exact (List.append_nil _).symm
  · intro dirpath outside
    rw [dirs, List.map_append, List.mem_append, not_or] at outside
    rw [files]
    exact inv.unknown dirpath outside.1

/-- A frame is written at the end of the data file of its queue. -/
theorem FileInv.write (inv : FileInv start s) (line : LineInv start s)
    (dirInv : DirInv start.pm s.pm) {place : Nat} {qinfo : QueueInfo} {object : FrameObject}
    (here : s.pm.qinfos[place]? = some qinfo) :
    FileInv start { s with
      pm := { (persistOne object qinfo s.pm).2 with
        qinfos := s.pm.qinfos.set place (persistOne object qinfo s.pm).1 }
      written := s.written ++ [(qinfo.qid, object)] } := by
  have own : (qinfo.qid, qinfo.dirpath) ∈ s.pm.dirs :=
    List.mem_map.mpr ⟨qinfo, List.mem_of_getElem? here, rfl⟩
  have dirs : PersistentManager.dirs { (persistOne object qinfo s.pm).2 with
      qinfos := s.pm.qinfos.set place (persistOne object qinfo s.pm).1 } = s.pm.dirs := by
    rw [PersistentManager.dirs, set_persistOne here]
    exact map_modify _ _ fun _ => rfl
  constructor
  · intro dir mem
    rw [dirs] at mem
    rw [dataFile_qinfos, dataFile_persistOne, ofHash_append, framesBytes_append, ofHash_singleton]
    by_cases same : dir.2 = qinfo.dirpath
    · obtain rfl := dirInv.same mem own same
      rw [if_pos same, if_pos rfl, inv.known _ mem, List.append_assoc]
      simp [framesBytes]
    · have other : qinfo.qid ≠ dir.1 := by
        intro equal
        obtain ⟨found, memFound, rfl⟩ := List.mem_map.mp mem
        have one := List.inj_on_of_nodup_map line.ids (List.mem_of_getElem? here) memFound equal
        exact same (congrArg QueueInfo.dirpath one).symm
      rw [if_neg same, if_neg other, inv.known dir mem]
      simp [framesBytes]
  · intro dirpath outside
    rw [dirs] at outside
    have other : dirpath ≠ qinfo.dirpath := by
      rintro rfl
      exact outside (List.mem_map.mpr ⟨_, own, rfl⟩)
    rw [dataFile_qinfos, dataFile_persistOne, if_neg other]
    exact inv.unknown dirpath outside

theorem fileInv_step {next : Delivery} {action : DeliveryAction} (inv : FileInv start s)
    (line : LineInv start s) (dirInv : DirInv start.pm s.pm)
    (step : DeliveryStep destination s action next) : FileInv start next := by
  cases step with
  | createNew point unknown => exact inv.createNew line dirInv unknown
  | write here pending => exact inv.write line dirInv here
  | link point => exact inv.kept (map_modify _ _ fun _ => rfl) (fun _ => rfl) rfl
  | grow point => exact inv.kept (map_modify _ _ fun _ => rfl) (fun _ => rfl) rfl
  | count point known => exact inv.kept (map_modify _ _ fun _ => rfl) (fun _ => rfl) rfl
  | storeIndex point here => exact inv.kept rfl (dataFile_persistQueueInfo _ _) rfl
  | _ => exact inv.kept rfl (fun _ => rfl) rfl

/-! ### The frames passed to `persist_frame` -/

/-- A frame for which `persist_frame` has begun is unlinked until it is linked. -/
theorem unlinked_step {next : Delivery} {action : DeliveryAction}
    (step : DeliveryStep destination s action next) (hashnum : UInt64) :
    s.handler.unlinked hashnum ++ ofHash hashnum (persistedBy s action) =
      ofHash hashnum (linkedBy s action) ++ next.handler.unlinked hashnum := by
  cases step with
  | accept point => simp [HandlerPoint.unlinked, persistedBy, linkedBy, point]
  | createKnown point known => simp [HandlerPoint.unlinked, persistedBy, linkedBy, point]
  | createNew point unknown => simp [HandlerPoint.unlinked, persistedBy, linkedBy, point]
  | link point => simp [HandlerPoint.unlinked, persistedBy, linkedBy, point]
  | grow point => simp [HandlerPoint.unlinked, persistedBy, linkedBy, point]
  | enqueue point => simp [HandlerPoint.unlinked, persistedBy, linkedBy, point]
  | _ => exact List.append_nil _

/-- What a run of the delivering threads keeps of the files and of the frames passed on. -/
structure StopInv (start s : Delivery) (persisted : List (UInt64 × FrameObject)) : Prop where
  line : LineInv start s
  dirs : DirInv start.pm s.pm
  files : FileInv start s
  passed : ∀ hashnum, contents hashnum start.queues ++ ofHash hashnum persisted =
    s.queueOrder hashnum ++ s.handler.unlinked hashnum

theorem stopInv_start (rested : start.Rested) : StopInv start start [] where
  line := lineInv_start rested
  dirs := dirInv_start rested
  files := fileInv_start rested
  passed hashnum := by
    simp [Delivery.queueOrder, HandlerPoint.entering, HandlerPoint.unlinked, rested.handler,
      rested.records.1]

theorem stopInv_step {next : Delivery} {action : DeliveryAction}
    {persisted : List (UInt64 × FrameObject)} (inv : StopInv start s persisted)
    (taken : deliveryStep destination s action = some next) :
    StopInv start next (persisted ++ persistedBy s action) where
  line := lineInv_step inv.line taken
  dirs := dirInv_step inv.dirs taken
  files := fileInv_step inv.files inv.line inv.dirs (deliveryStep_cases taken)
  passed hashnum := by
    have step := deliveryStep_cases taken
    rw [ofHash_append, ← List.append_assoc, inv.passed, List.append_assoc, unlinked_step step,
      ← List.append_assoc, ← queueOrder_step inv.line.queues step]

/-- The frames passed to `persist_frame` are those written and those that wait. -/
theorem StopInv.persisted_eq {persisted : List (UInt64 × FrameObject)}
    (inv : StopInv start s persisted) {qinfo : QueueInfo} (mem : qinfo ∈ s.pm.qinfos) :
    ofHash qinfo.qid persisted = ofHash qinfo.qid s.written ++ s.waiting qinfo := by
  have passed := inv.passed qinfo.qid
  rw [inv.line.known qinfo mem, fileOrder, List.append_assoc, List.append_assoc] at passed
  exact List.append_cancel_left passed

/-! ### A stop -/

theorem cleanupPersistentList_disk (pm : PersistentManager) :
    (cleanupPersistentList pm).disk = pm.disk := by
  have all : ∀ (qinfos : List QueueInfo) (pm : PersistentManager),
      (qinfos.foldl (fun pm qinfo => freeQinfo qinfo { pm with qinfos := pm.qinfos.tail }) pm).disk =
        pm.disk := by
    intro qinfos
    induction qinfos with
    | nil => exact fun _ => rfl
    | cons qinfo qinfos ih => exact fun pm => ih _
  exact all pm.qinfos pm

/-- The handler leaves the files as they are. -/
theorem cleanup_files {ret : Ret} {left : PersistentManager} (stopped : s.cleanup = some (ret, left))
    (dirpath : List UInt8) : left.files dirpath = s.pm.files dirpath := by
  obtain ⟨-, same⟩ := Option.ite_none_right_eq_some.mp stopped
  cases same
  rw [PersistentManager.files, cleanupPersistentList_disk]
  rfl

theorem frameBytes_ne_nil (frame : Frame) : frameBytes frame ≠ [] := by
  simp [frameBytes]

theorem framesBytes_eq_nil {objects : List FrameObject} : framesBytes objects = [] ↔ objects = [] := by
  cases objects with
  | nil => exact iff_of_true rfl rfl
  | cons object objects => simp [framesBytes, frameBytes_ne_nil]

/-- In every state that a run can be stopped in, nothing is lost exactly when nothing waits. -/
theorem clean_stop_iff {persisted : List (UInt64 × FrameObject)} {ret : Ret}
    {left : PersistentManager} (rested : start.Rested)
    (reached : Reaches (noting (deliveryStep destination) persistedBy) Always (start, [])
      (s, persisted))
    (stopped : s.cleanup = some (ret, left)) :
    LosesNothing start s persisted left ↔ NothingWaits s := by
  have inv : StopInv start s persisted :=
    @Reaches.noted_invariant _ _ _ _ Always persistedBy (StopInv start)
      (fun _ _ _ _ inv _ taken => stopInv_step inv taken) _ _ _ _ reached (stopInv_start rested)
  refine forall_congr' fun qinfo => forall_congr' fun mem => and_congr ?_ ?_
  · have own : (qinfo.qid, qinfo.dirpath) ∈ s.pm.dirs := List.mem_map.mpr ⟨qinfo, mem, rfl⟩
    rw [PersistentManager.dataFile, cleanup_files stopped, ← PersistentManager.dataFile,
      inv.files.known _ own, inv.persisted_eq mem, framesBytes_append, ← List.append_assoc,
      List.self_eq_append_right, framesBytes_eq_nil]
  · rw [cleanup_files stopped]

/-- The steps that persist a frame and write it. -/
def writtenLetter : List DeliveryAction :=
  [.accept (cstring "q") letterA, .create, .link, .grow, .enqueue, .enter, .storeIndex, .compare,
    .write, .write]

theorem clean_stop_written :
    ∃ s persisted ret left, Transition.run (noting (deliveryStep fun _ => cstring "q") persistedBy)
        (Delivery.init (cstring "data"), []) writtenLetter = some (s, persisted) ∧
      s.cleanup = some (ret, left) ∧ persisted ≠ [] ∧
      LosesNothing (Delivery.init (cstring "data")) s persisted left := by
  have taken : ∃ p, Transition.run (noting (deliveryStep fun _ => cstring "q") persistedBy)
        (Delivery.init (cstring "data"), []) writtenLetter = some p ∧
      decide (p.1.flusher = .outside ∧ p.2 ≠ [] ∧ NothingWaits p.1) = true := by
    apply Option.map_eq_some_iff.mp
    decide +kernel
  obtain ⟨⟨s, persisted⟩, run, result⟩ := taken
  obtain ⟨outside, some, nothing⟩ := of_decide_eq_true result
  have stopped : s.cleanup = .some (cleanupPersistentWorker s.pm) := if_pos outside
  exact ⟨s, persisted, _, _, run, stopped, some,
    (clean_stop_iff (init_rested _) (Transition.reaches_of_run run) stopped).mpr nothing⟩

/-- A frame that waits is lost. -/
theorem clean_stop_loses_pending :
    ¬ ∀ s persisted ret left,
      Reaches (noting (deliveryStep fun _ => cstring "q") persistedBy) Always
        (Delivery.init (cstring "data"), []) (s, persisted) →
      s.cleanup = some (ret, left) →
        LosesNothing (Delivery.init (cstring "data")) s persisted left := by
  intro always
  have taken : ∃ p, Transition.run (noting (deliveryStep fun _ => cstring "q") persistedBy)
        (Delivery.init (cstring "data"), [])
        [.accept (cstring "q") letterA, .create, .link, .grow, .enqueue] = some p ∧
      (p.1.flusher, p.1.pm.qinfos.map fun qinfo =>
        ((cleanupPersistentList p.1.pm).dataFile qinfo.dirpath, ofHash qinfo.qid p.2)) =
          (.outside, [([], [letterA])]) := by
    apply Option.map_eq_some_iff.mp
    decide +kernel
  obtain ⟨⟨s, persisted⟩, run, result⟩ := taken
  obtain ⟨outside, files⟩ := Prod.mk.inj result
  obtain ⟨qinfo, only, file⟩ := List.map_eq_singleton_iff.mp files
  obtain ⟨empty, passed⟩ := Prod.mk.inj file
  have stopped : s.cleanup = some (cleanupPersistentWorker s.pm) := if_pos outside
  have kept := (always s persisted _ _ (Transition.reaches_of_run run) stopped qinfo
    (by rw [only]; exact List.mem_singleton_self _)).1
  have held : (cleanupPersistentList s.pm).dataFile qinfo.dirpath =
      _ ++ framesBytes (ofHash qinfo.qid persisted) := kept
  rw [empty, passed] at held
  exact absurd held.symm (by simp [framesBytes, frameBytes_ne_nil])

end Newtmq
