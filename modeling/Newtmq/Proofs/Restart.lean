/-
Module: Newtmq.Proofs.Restart
Purpose: What the data directory holds in every state of a run in which each name is plain: for each
  queue one directory with its name, whose file holds the frames written, and an index that counts the
  first ones of them. After a crash in any of these states each frame that waits comes back under its
  name, exactly when it can be read.
Trusted boundary: none
Main exports: NameInv, FilesInv, RestartInv, restartInv_step, recovers_by_name_iff
-/
import Newtmq.Proofs.SentIndexOrder
import Newtmq.Proofs.SentIndexFile
import Newtmq.Proofs.Startup

namespace Newtmq

open KeyedList (map_modify mem_modify)
open Transition (recording)

/-! ### Names -/

theorem hashFree_iff {pm : PersistentManager} {qname : List UInt8} : HashFree pm qname ↔
    ∀ dir ∈ pm.dirs, dir.1 = getHash qname → dir.2 = queueDir pm qname := by
  rw [HashFree, PersistentManager.dirs, List.forall_mem_map]

theorem getQinfo_none_dirs {pm : PersistentManager} {hashnum : UInt64} :
    getQinfo hashnum pm = none ↔ hashnum ∉ pm.dirs.map Prod.fst := by
  rw [getQinfo_none, PersistentManager.dirs, List.map_map]
  rfl

theorem queueDir_congr {pm next : PersistentManager} (datadir : next.datadir = pm.datadir)
    (qname : List UInt8) : queueDir next qname = queueDir pm qname := by
  simp [queueDir, datadir]

/-- The names for which frames have been accepted are plain, and the directory of each object is that
of one of them. A name whose hash number no object has is the one that is being handled. -/
structure NameInv (s : Delivery) (names : List (List UInt8)) : Prop where
  plain : ∀ qname ∈ names, PlainName qname
  owned : ∀ dir ∈ s.pm.dirs, ∃ qname ∈ names, dir = (getHash qname, queueDir s.pm qname)
  only : ∀ qname ∈ names, HashFree s.pm qname
  waits : ∀ qname ∈ names, getQinfo (getHash qname) s.pm = none →
    ∃ object, s.handler = .accepted qname object
  accepted : ∀ qname object, s.handler = .accepted qname object → qname ∈ names

theorem nameInv_start {start : Delivery} {names : List (List UInt8)} (rested : start.Rested)
    (recoverable : start.Recoverable names) : NameInv start names where
  plain := recoverable.plain
  owned dir mem := by
    obtain ⟨qinfo, memQinfo, rfl⟩ := List.mem_map.mp mem
    obtain ⟨qname, memName, qid, dirpath⟩ := recoverable.named qinfo memQinfo
    exact ⟨qname, memName, Prod.ext qid dirpath⟩
  only qname mem := (recoverable.queued qname mem).2
  waits qname mem none := absurd none (recoverable.queued qname mem).1
  accepted qname object point := by
    rw [rested.handler] at point
    cases point

/-- A step that concerns neither ids nor directories nor the frame that has been accepted. -/
theorem NameInv.kept {s next : Delivery} {names : List (List UInt8)} (inv : NameInv s names)
    (dirs : next.pm.dirs = s.pm.dirs) (datadir : next.pm.datadir = s.pm.datadir)
    (handler : ∀ qname object, next.handler = .accepted qname object ↔
      s.handler = .accepted qname object) : NameInv next names where
  plain := inv.plain
  owned dir mem := by
    rw [dirs] at mem
    simp only [queueDir_congr datadir]
    exact inv.owned dir mem
  only qname mem := by
    rw [hashFree_iff, dirs, queueDir_congr datadir]
    exact hashFree_iff.mp (inv.only qname mem)
  waits qname mem none := by
    rw [getQinfo_none_dirs, dirs, ← getQinfo_none_dirs] at none
    obtain ⟨object, point⟩ := inv.waits qname mem none
    exact ⟨object, (handler qname object).mpr point⟩
  accepted qname object point := inv.accepted qname object ((handler qname object).mp point)

/-- A frame is accepted for a plain name. -/
theorem NameInv.accept {s : Delivery} {names : List (List UInt8)} (inv : NameInv s names)
    (idle : s.handler = .idle) {qname : List UInt8} (object : FrameObject) (plain : PlainName qname)
    (free : HashFree s.pm qname) :
    NameInv { s with handler := .accepted qname object } (names ++ [qname]) where
  plain other mem := by
    rcases List.mem_append.mp mem with old | new
    · exact inv.plain other old
    · obtain rfl := List.mem_singleton.mp new
      exact plain
  owned dir mem := by
    obtain ⟨other, memOther, same⟩ := inv.owned dir mem
    exact ⟨other, List.mem_append_left _ memOther, same⟩
  only other mem := by
    rcases List.mem_append.mp mem with old | new
    · exact inv.only other old
    · obtain rfl := List.mem_singleton.mp new
      exact free
  waits other mem none := by
    rcases List.mem_append.mp mem with old | new
    · obtain ⟨_, point⟩ := inv.waits other old none
      rw [idle] at point
      cases point
    · obtain rfl := List.mem_singleton.mp new
      exact ⟨object, rfl⟩
  accepted other waiting point := by
    cases point
    exact List.mem_append_right _ List.mem_cons_self

/-- The name that has been accepted has an object already. -/
theorem NameInv.createKnown {s : Delivery} {names : List (List UInt8)} (inv : NameInv s names)
    {qname : List UInt8} {object : FrameObject} {place : Nat}
    (point : s.handler = .accepted qname object)
    (known : getQinfo (getHash qname) s.pm = some place) :
    NameInv { s with handler := .created qname object place } names where
  plain := inv.plain
  owned := inv.owned
  only := inv.only
  waits other mem none := by
    obtain ⟨_, accepted⟩ := inv.waits other mem none
    rw [point] at accepted
    cases accepted
    rw [known] at none
    cases none
  accepted other waiting found := by cases found

/-- The ids and directories after `alloc_qinfo`. -/
theorem dirs_createNew (qname : List UInt8) (pm : PersistentManager) :
    PersistentManager.dirs { (allocQinfo qname pm).2 with
      qinfos := pm.qinfos ++ [(allocQinfo qname pm).1] } =
        pm.dirs ++ [(getHash qname, queueDir pm qname)] := by
  rw [PersistentManager.dirs, List.map_append]
  rfl

/-- The name that has been accepted gets an object. -/
theorem NameInv.createNew {s : Delivery} {names : List (List UInt8)} (inv : NameInv s names)
    {qname : List UInt8} {object : FrameObject} (place : Nat)
    (point : s.handler = .accepted qname object)
    (unknown : getQinfo (getHash qname) s.pm = none) :
    NameInv { s with
      pm := { (allocQinfo qname s.pm).2 with qinfos := s.pm.qinfos ++ [(allocQinfo qname s.pm).1] }
      handler := .created qname object place } names where
  plain := inv.plain
  owned dir mem := by
    rw [dirs_createNew] at mem
    rcases List.mem_append.mp mem with old | new
    · exact inv.owned dir old
    · exact ⟨qname, inv.accepted qname object point, List.mem_singleton.mp new⟩
  only other mem := by
    rw [hashFree_iff]
    intro dir memDir hash
    rw [dirs_createNew] at memDir
    rcases List.mem_append.mp memDir with old | new
    · exact hashFree_iff.mp (inv.only other mem) dir old hash
    · obtain rfl := List.mem_singleton.mp new
      -- No other name with this hash number has been accepted.
      rw [show getHash qname = getHash other from hash] at unknown
      obtain ⟨_, accepted⟩ := inv.waits other mem unknown
      rw [point] at accepted
      cases accepted
      rfl
  waits other mem none := by
    rw [getQinfo_none_dirs, dirs_createNew, List.map_append, List.mem_append, not_or] at none
    obtain ⟨_, accepted⟩ := inv.waits other mem (getQinfo_none_dirs.mpr none.1)
    rw [point] at accepted
    cases accepted
    exact absurd List.mem_cons_self none.2
  accepted other waiting found := by cases found

theorem nameInv_step {destination : Nat → List UInt8} {start s next : Delivery}
    {names : List (List UInt8)} {action : DeliveryAction} (inv : NameInv s names)
    (allowed : KeepsRecoverable PlainName destination start s action)
    (taken : deliveryStep destination s action = some next) :
    NameInv next (names ++ action.names) := by
  have unrelated : ∀ {next : Delivery}, action.names = [] → next.pm.dirs = s.pm.dirs →
      next.pm.datadir = s.pm.datadir →
      (∀ qname object, next.handler = .accepted qname object ↔
        s.handler = .accepted qname object) → NameInv next (names ++ action.names) := by
    intro next none dirs datadir handler
    rw [none, List.append_nil]
    exact inv.kept dirs datadir handler
  cases deliveryStep_cases taken with
  | accept point => exact inv.accept point _ allowed.1 allowed.2.1
  | createKnown point known =>
      change NameInv _ (names ++ [])
      rw [List.append_nil]
      exact inv.createKnown point known
  | createNew point unknown =>
      change NameInv _ (names ++ [])
      rw [List.append_nil]
      exact inv.createNew _ point unknown
  | link point => exact unrelated rfl (map_modify _ _ fun _ => rfl) rfl (by simp [point])
  | grow point => exact unrelated rfl (map_modify _ _ fun _ => rfl) rfl (by simp [point])
  | enqueue point => exact unrelated rfl rfl rfl (by simp [point])
  | dequeueNone got => exact unrelated rfl rfl rfl fun _ _ => Iff.rfl
  | dequeueSome point got => exact unrelated rfl rfl rfl fun _ _ => Iff.rfl
  | send point => exact unrelated rfl rfl rfl fun _ _ => Iff.rfl
  | count point known =>
      exact unrelated rfl (map_modify _ _ fun _ => rfl) rfl fun _ _ => Iff.rfl
  | countNone point => exact unrelated rfl rfl rfl fun _ _ => Iff.rfl
  | enter => exact unrelated rfl rfl rfl fun _ _ => Iff.rfl
  | storeIndex point here => exact unrelated rfl rfl rfl fun _ _ => Iff.rfl
  | compare point => exact unrelated rfl rfl rfl fun _ _ => Iff.rfl
  | write here pending =>
      refine unrelated rfl ?_ rfl fun _ _ => Iff.rfl
      rw [PersistentManager.dirs, set_persistOne here]
      exact map_modify _ _ fun _ => rfl
  | writeNone point => exact unrelated rfl rfl rfl fun _ _ => Iff.rfl

/-! ### Frames -/

/-- The frames that the management worker has at hand, those that wait to be written, and those that
are written. -/
structure AllFrames (P : Frame → Prop) (s : Delivery) : Prop where
  accepted : ∀ object, s.handler.object = some object → P object.frame
  pending : ∀ qinfo ∈ s.pm.qinfos, ∀ object ∈ qinfo.unpersistent, P object.frame
  written : ∀ entry ∈ s.written, P entry.2.frame

theorem allFrames_start {P : Frame → Prop} {start : Delivery} (rested : start.Rested) :
    AllFrames P start where
  accepted object found := by
    rw [rested.handler] at found
    cases found
  pending qinfo mem object memObject := by
    rw [rested.pending qinfo mem] at memObject
    cases memObject
  written entry mem := by
    rw [rested.records.2.2.2] at mem
    cases mem

/-- A step changes the list of objects at one place at most. -/
theorem AllFrames.modify {P : Frame → Prop} {s next : Delivery} (all : AllFrames P s)
    (unique : (s.pm.qinfos.map QueueInfo.qid).Nodup) {place : Nat} {f : QueueInfo → QueueInfo}
    (qinfos : next.pm.qinfos = s.pm.qinfos.modify place f)
    (pending : ∀ qinfo, ∀ object ∈ (f qinfo).unpersistent,
      object ∈ qinfo.unpersistent ∨ s.handler.object = some object)
    (handler : ∀ object, next.handler.object = some object → s.handler.object = some object)
    (written : ∀ entry ∈ next.written, entry ∈ s.written ∨ P entry.2.frame) : AllFrames P next where
  accepted object found := all.accepted object (handler object found)
  pending qinfo mem object memObject := by
    rw [qinfos] at mem
    rcases mem_modify unique mem with ⟨old, here, rfl⟩ | ⟨old, -⟩
    · rcases pending old object memObject with before | entering
      · exact all.pending old (List.mem_of_getElem? here) object before
      · exact all.accepted object entering
    · exact all.pending qinfo old object memObject
  written entry mem := by
    rcases written entry mem with old | new
    · exact all.written entry old
    · exact new

theorem AllFrames.kept {P : Frame → Prop} {s next : Delivery} (all : AllFrames P s)
    (qinfos : next.pm.qinfos = s.pm.qinfos) (written : next.written = s.written)
    (handler : ∀ object, next.handler.object = some object →
      s.handler.object = some object ∨ P object.frame) : AllFrames P next where
  accepted object found := by
    rcases handler object found with before | now
    · exact all.accepted object before
    · exact now
  pending := by
    rw [qinfos]
    exact all.pending
  written := by
    rw [written]
    exact all.written

theorem allFrames_step {P : Frame → Prop} {destination : Nat → List UInt8} {s next : Delivery}
    {action : DeliveryAction} (all : AllFrames P s)
    (unique : (s.pm.qinfos.map QueueInfo.qid).Nodup)
    (allowed : ∀ qname object, action = .accept qname object → P object.frame)
    (taken : deliveryStep destination s action = some next) : AllFrames P next := by
  cases deliveryStep_cases taken with
  | accept point =>
      refine all.kept rfl rfl fun other found => ?_
      cases found
      exact Or.inr (allowed _ _ rfl)
  | createKnown point known => exact all.kept rfl rfl fun _ found => Or.inl (by rw [point]; exact found)
  | @createNew qname object point unknown =>
      refine ⟨fun other found => ?_, fun qinfo mem other memOther => ?_, all.written⟩
      · exact all.accepted other (by rw [point]; exact found)
      · rcases List.mem_append.mp mem with old | new
        · exact all.pending qinfo old other memOther
        · obtain rfl := List.mem_singleton.mp new
          rw [(allocQinfo_fields qname s.pm).2.2.1] at memOther
          cases memOther
  | @link qname object place point =>
      refine all.modify unique rfl (fun qinfo other mem => ?_) (fun other found => ?_)
        fun _ mem => Or.inl mem
      · rcases List.mem_append.mp mem with old | new
        · exact Or.inl old
        · obtain rfl := List.mem_singleton.mp new
          exact Or.inr (by rw [point]; rfl)
      · rw [point]
        exact found
  | grow point =>
      refine all.modify unique rfl (fun _ _ mem => Or.inl mem) (fun other found => ?_)
        fun _ mem => Or.inl mem
      rw [point]
      exact found
  | enqueue point => exact all.kept rfl rfl fun _ found => by cases found
  | count point known =>
      exact all.modify unique rfl (fun _ _ mem => Or.inl mem) (fun _ found => found)
        fun _ mem => Or.inl mem
  | @write place qinfo object rest here pending =>
      refine all.modify unique (set_persistOne here object)
        (fun _ _ mem => Or.inl (List.mem_of_mem_tail mem)) (fun _ found => found) fun entry mem => ?_
      rcases List.mem_append.mp mem with old | new
      · exact Or.inl old
      · obtain rfl := List.mem_singleton.mp new
        exact Or.inr (all.pending qinfo (List.mem_of_getElem? here) object (by simp [pending]))
  | dequeueNone got => exact all.kept rfl rfl fun _ found => Or.inl found
  | dequeueSome point got => exact all.kept rfl rfl fun _ found => Or.inl found
  | send point => exact all.kept rfl rfl fun _ found => Or.inl found
  | countNone point => exact all.kept rfl rfl fun _ found => Or.inl found
  | enter => exact all.kept rfl rfl fun _ found => Or.inl found
  | storeIndex point here => exact all.kept rfl rfl fun _ found => Or.inl found
  | compare point => exact all.kept rfl rfl fun _ found => Or.inl found
  | writeNone point => exact all.kept rfl rfl fun _ found => Or.inl found

/-! ### Files -/

theorem persistQueueInfo_disk {qinfo : QueueInfo} {pm : PersistentManager} {data : List UInt8}
    {index : Option Int} (held : pm.disk qinfo.dirpath = some ⟨data, index⟩) :
    (persistQueueInfo qinfo pm).disk =
      Function.update pm.disk qinfo.dirpath (some ⟨data, some qinfo.indexSent⟩) := by
  simp [persistQueueInfo, PersistentManager.setFiles, PersistentManager.files, held]

theorem persistOne_disk (object : FrameObject) {qinfo : QueueInfo} {pm : PersistentManager}
    {data : List UInt8} {index : Option Int}
    (held : pm.disk qinfo.dirpath = some ⟨data, index⟩) :
    (persistOne object qinfo pm).2.disk = Function.update pm.disk qinfo.dirpath
      (some ⟨data ++ frameBytes object.frame, index⟩) := by
  simp [persistOne, PersistentManager.setFiles, PersistentManager.files, held]

/-- The directories with files are those of the objects. -/
def FilesKnown (pm : PersistentManager) : Prop :=
  ∀ dirpath, (pm.disk dirpath).isSome ↔ dirpath ∈ pm.dirs.map Prod.snd

theorem filesKnown_start {start : Delivery} {names : List (List UInt8)}
    (recoverable : start.Recoverable names) : FilesKnown start.pm := by
  intro dirpath
  constructor
  · intro some
    obtain ⟨qinfo, mem, rfl⟩ := recoverable.known dirpath some
    exact List.mem_map.mpr ⟨_, List.mem_map.mpr ⟨qinfo, mem, rfl⟩, rfl⟩
  · intro mem
    obtain ⟨dir, memDir, rfl⟩ := List.mem_map.mp mem
    obtain ⟨qinfo, memQinfo, rfl⟩ := List.mem_map.mp memDir
    obtain ⟨skipped, files⟩ := recoverable.files qinfo memQinfo
    rw [files]
    rfl

/-- Files are written in the directories of the objects. -/
theorem FilesKnown.update {pm next : PersistentManager} (known : FilesKnown pm)
    {dir : UInt64 × List UInt8} (mem : dir ∈ pm.dirs) {files : QueueFiles}
    (dirs : next.dirs = pm.dirs) (disk : next.disk = Function.update pm.disk dir.2 (some files)) :
    FilesKnown next := by
  intro dirpath
  rw [dirs, disk, ← known dirpath, Function.update_apply]
  split
  next same =>
    rw [same, known dir.2]
    exact iff_of_true rfl (List.mem_map_of_mem mem)
  · exact Iff.rfl

theorem filesKnown_step {destination : Nat → List UInt8} {s next : Delivery} {action : DeliveryAction}
    (known : FilesKnown s.pm) (taken : deliveryStep destination s action = some next) :
    FilesKnown next.pm := by
  have unrelated : ∀ {pm : PersistentManager}, pm.dirs = s.pm.dirs → pm.disk = s.pm.disk →
      FilesKnown pm := by
    intro pm dirs disk dirpath
    rw [dirs, disk]
    exact known dirpath
  cases deliveryStep_cases taken with
  | @createNew qname object point unknown =>
      intro dirpath
      rw [dirs_createNew, List.map_append, List.mem_append, ← known dirpath]
      change ((allocQinfo qname s.pm).2.disk dirpath).isSome ↔ _
      rw [allocQinfo_disk, Function.update_apply]
      split
      next same => exact iff_of_true rfl (Or.inr (by simp [same]))
      next other => simp [other]
  | @storeIndex place qinfo point here =>
      exact known.update (List.mem_map_of_mem (List.mem_of_getElem? here)) rfl rfl
  | @write place qinfo object rest here pending =>
      refine known.update (List.mem_map_of_mem (List.mem_of_getElem? here)) ?_ rfl
      rw [PersistentManager.dirs, set_persistOne here]
      exact map_modify _ _ fun _ => rfl
  | link point => exact unrelated (map_modify _ _ fun _ => rfl) rfl
  | grow point => exact unrelated (map_modify _ _ fun _ => rfl) rfl
  | count point known => exact unrelated (map_modify _ _ fun _ => rfl) rfl
  | _ => exact known

/-- What the files of a directory hold: the file begins with bytes that were counted as sent at the
start, then come the frames recovered then and the frames written since, and the index counts the
first ones of them. -/
structure DirHolds (start s : Delivery) (dir : UInt64 × List UInt8) (skipped : List UInt8)
    (counted waiting : List FrameObject) : Prop where
  filed : contents dir.1 start.queues ++ ofHash dir.1 s.written = counted ++ waiting
  files : s.pm.disk dir.2 =
    some ⟨skipped ++ framesBytes (counted ++ waiting), some (skipped.length + totalSize counted)⟩
  stored : unpersistQueueInfo dir.2 start.pm = skipped.length

/-- Each directory holds the frames of its queue, and there were no files in other directories. -/
structure FilesInv (start s : Delivery) : Prop where
  holds : ∀ dir ∈ s.pm.dirs, ∃ skipped counted waiting, DirHolds start s dir skipped counted waiting
  started : ∀ dirpath, (start.pm.disk dirpath).isSome → dirpath ∈ s.pm.dirs.map Prod.snd

theorem filesInv_start {start : Delivery} {names : List (List UInt8)} (rested : start.Rested)
    (recoverable : start.Recoverable names) : FilesInv start start := by
  refine ⟨fun dir mem => ?_, fun dirpath => ((filesKnown_start recoverable) dirpath).mp⟩
  obtain ⟨qinfo, memQinfo, rfl⟩ := List.mem_map.mp mem
  obtain ⟨skipped, files⟩ := recoverable.files qinfo memQinfo
  refine ⟨skipped, [], contents qinfo.qid start.queues, ?_, ?_, ?_⟩
  · rw [rested.records.2.2.2]
    simp
  · simpa [framesBytes] using files
  · simp [unpersistQueueInfo, PersistentManager.files, files]

/-- A step that writes nothing. -/
theorem FilesInv.kept {start s next : Delivery} (inv : FilesInv start s)
    (dirs : next.pm.dirs = s.pm.dirs) (disk : next.pm.disk = s.pm.disk)
    (written : next.written = s.written) : FilesInv start next where
  holds dir mem := by
    rw [dirs] at mem
    obtain ⟨skipped, counted, waiting, holds⟩ := inv.holds dir mem
    exact ⟨skipped, counted, waiting, by rw [written]; exact holds.filed, by rw [disk]; exact holds.files,
      holds.stored⟩
  started := by
    rw [dirs]
    exact inv.started

/-- A new object makes the files of a directory that had none. -/
theorem FilesInv.createNew {start s : Delivery} (inv : FilesInv start s) (line : LineInv start s)
    (dirs : DirInv start.pm s.pm) (known : FilesKnown s.pm) {qname : List UInt8}
    {handler : HandlerPoint} (unknown : getQinfo (getHash qname) s.pm = none) :
    FilesInv start { s with
      pm := { (allocQinfo qname s.pm).2 with qinfos := s.pm.qinfos ++ [(allocQinfo qname s.pm).1] }
      handler := handler } := by
  have fresh : queueDir s.pm qname ∉ s.pm.dirs.map Prod.snd := by
    rw [queueDir_congr dirs.datadir]
    exact dirs.fresh unknown
  have noFiles : s.pm.disk (queueDir s.pm qname) = none := by
    rw [← Option.not_isSome_iff_eq_none]
    exact fun some => fresh ((known _).mp some)
  have noStart : start.pm.disk (queueDir s.pm qname) = none := by
    rw [← Option.not_isSome_iff_eq_none]
    exact fun some => fresh (inv.started _ some)
  have disk : (allocQinfo qname s.pm).2.disk =
      Function.update s.pm.disk (queueDir s.pm qname) (some ⟨[], some 0⟩) := by
    rw [allocQinfo_disk]
    simp [PersistentManager.dataFile, unpersistQueueInfo, PersistentManager.files, noFiles]
  constructor
  case holds =>
    intro dir mem
    rw [dirs_createNew] at mem
    rcases List.mem_append.mp mem with old | new
    · obtain ⟨skipped, counted, waiting, holds⟩ := inv.holds dir old
      refine ⟨skipped, counted, waiting, holds.filed, ?_, holds.stored⟩
      have other : dir.2 ≠ queueDir s.pm qname :=
        fun same => fresh (same ▸ List.mem_map_of_mem old)
      change (allocQinfo qname s.pm).2.disk dir.2 = _
      rw [disk, Function.update_of_ne other]
      exact holds.files
    · obtain rfl := List.mem_singleton.mp new
      obtain ⟨-, recovered, written⟩ := line.unknown _ unknown
      refine ⟨[], [], [], ?_, ?_, ?_⟩
      · rw [recovered, written]
      · change (allocQinfo qname s.pm).2.disk (queueDir s.pm qname) = _
        rw [disk, Function.update_self]
        simp [framesBytes]
      · simp [unpersistQueueInfo, PersistentManager.files, noStart]
  case started =>
    intro dirpath some
    rw [dirs_createNew, List.map_append]
    exact List.mem_append_left _ (inv.started dirpath some)

/-- A change of the files of one directory. -/
theorem FilesInv.update {start s next : Delivery} (inv : FilesInv start s)
    (dirInv : DirInv start.pm s.pm) {dir : UInt64 × List UInt8} (mem : dir ∈ s.pm.dirs)
    {files : QueueFiles} (dirs : next.pm.dirs = s.pm.dirs)
    (disk : next.pm.disk = Function.update s.pm.disk dir.2 (some files))
    (written : ∀ other, other ≠ dir.1 → ofHash other next.written = ofHash other s.written)
    (unique : (s.pm.dirs.map Prod.fst).Nodup)
    (holds : ∃ skipped counted waiting, DirHolds start next dir skipped counted waiting) :
    FilesInv start next where
  holds other memOther := by
    rw [dirs] at memOther
    by_cases same : other = dir
    · rw [same]
      exact holds
    · obtain ⟨skipped, counted, waiting, before⟩ := inv.holds other memOther
      have path : other.2 ≠ dir.2 := fun path => same (dirInv.same memOther mem path)
      have hash : other.1 ≠ dir.1 := fun hash => same (List.inj_on_of_nodup_map unique memOther mem hash)
      exact ⟨skipped, counted, waiting, by rw [written other.1 hash]; exact before.filed,
        by rw [disk, Function.update_of_ne path]; exact before.files, before.stored⟩
  started := by
    rw [dirs]
    exact inv.started

/-- No two directories are those of one queue. -/
theorem LineInv.dirs_nodup {start s : Delivery} (line : LineInv start s) :
    (s.pm.dirs.map Prod.fst).Nodup := by
  rw [PersistentManager.dirs, List.map_map]
  exact line.ids

/-- An index that is stored when the frames counted in it have been written counts the first frames of
the file. -/
theorem FilesInv.storeIndex {destination : Nat → List UInt8} {start s : Delivery}
    (inv : FilesInv start s) (line : LineInv start s) (dirs : DirInv start.pm s.pm)
    (index : CountedIndex destination start s) (count : CountInv s) {place : Nat} {qinfo : QueueInfo}
    (here : s.pm.qinfos[place]? = some qinfo)
    (flushed : (ofHash qinfo.qid s.counted).Subperm
      (contents qinfo.qid start.queues ++ ofHash qinfo.qid s.written)) {flusher : FlusherPoint} :
    FilesInv start { s with pm := persistQueueInfo qinfo s.pm, flusher := flusher } := by
  have memQinfo := List.mem_of_getElem? here
  have mem : (qinfo.qid, qinfo.dirpath) ∈ s.pm.dirs := List.mem_map.mpr ⟨qinfo, memQinfo, rfl⟩
  obtain ⟨skipped, counted, waiting, holds⟩ := inv.holds _ mem
  have first : ofHash qinfo.qid s.counted <+:
      contents qinfo.qid start.queues ++ ofHash qinfo.qid s.written := by
    apply List.prefix_of_prefix_length_le
      ((count.first qinfo.qid).trans (taken_prefix_fileOrder line memQinfo))
      (List.prefix_append _ qinfo.unpersistent)
    exact flushed.length_le
  obtain ⟨later, filed⟩ := first
  refine inv.update dirs mem rfl (persistQueueInfo_disk holds.files) (fun _ _ => rfl) line.dirs_nodup
    ⟨skipped, ofHash qinfo.qid s.counted, later, filed.symm, ?_, holds.stored⟩
  change (persistQueueInfo qinfo s.pm).disk qinfo.dirpath = _
  rw [persistQueueInfo_disk holds.files, Function.update_self, index.index qinfo memQinfo, filed,
    ← holds.filed, holds.stored]

/-- A frame that is written is the last one of the file. -/
theorem FilesInv.write {start s : Delivery} (inv : FilesInv start s) (line : LineInv start s)
    (dirs : DirInv start.pm s.pm) {place : Nat} {qinfo : QueueInfo} {object : FrameObject}
    (here : s.pm.qinfos[place]? = some qinfo) :
    FilesInv start { s with
      pm := { (persistOne object qinfo s.pm).2 with
        qinfos := s.pm.qinfos.set place (persistOne object qinfo s.pm).1 }
      written := s.written ++ [(qinfo.qid, object)] } := by
  have mem : (qinfo.qid, qinfo.dirpath) ∈ s.pm.dirs :=
    List.mem_map.mpr ⟨qinfo, List.mem_of_getElem? here, rfl⟩
  obtain ⟨skipped, counted, waiting, holds⟩ := inv.holds _ mem
  rw [set_persistOne here]
  refine inv.update dirs mem (map_modify _ _ fun _ => rfl) (persistOne_disk object holds.files)
    (fun other apart => ?_) line.dirs_nodup ⟨skipped, counted, waiting ++ [object], ?_, ?_, holds.stored⟩
  · change ofHash other (s.written ++ [(qinfo.qid, object)]) = _
    rw [ofHash_append, ofHash_singleton, if_neg (Ne.symm apart), List.append_nil]
  · change contents qinfo.qid start.queues ++ ofHash qinfo.qid (s.written ++ [(qinfo.qid, object)]) = _
    rw [ofHash_append, ofHash_singleton, if_pos rfl, ← List.append_assoc, holds.filed, List.append_assoc]
  · change (persistOne object qinfo s.pm).2.disk qinfo.dirpath = _
    rw [persistOne_disk object holds.files, Function.update_self, ← List.append_assoc counted,
      framesBytes_append (counted ++ waiting), List.append_assoc]
    simp [framesBytes]

/-! ### Runs -/

/-- What holds in every state of a run in which the frames come back under their names. -/
structure RestartInv (destination : Nat → List UInt8) (start s : Delivery)
    (names : List (List UInt8)) : Prop where
  line : LineInv start s
  dirs : DirInv start.pm s.pm
  index : CountedIndex destination start s
  count : CountInv s
  names : NameInv s names
  frames : AllFrames Frame.Sendable s
  known : FilesKnown s.pm
  files : FilesInv start s

theorem restartInv_start {start : Delivery} {names : List (List UInt8)} (destination : Nat → List UInt8)
    (rested : start.Rested) (recoverable : start.Recoverable names) :
    RestartInv destination start start names where
  line := lineInv_start rested
  dirs := dirInv_start rested
  index := countedIndex_start destination rested
  count := countInv_start rested
  names := nameInv_start rested recoverable
  frames := allFrames_start rested
  known := filesKnown_start recoverable
  files := filesInv_start rested recoverable

theorem filesInv_step {destination : Nat → List UInt8} {start s next : Delivery}
    {names : List (List UInt8)} {action : DeliveryAction} (inv : RestartInv destination start s names)
    (allowed : KeepsRecoverable PlainName destination start s action)
    (taken : deliveryStep destination s action = some next) : FilesInv start next := by
  have files := inv.files
  cases deliveryStep_cases taken with
  | createNew point unknown => exact files.createNew inv.line inv.dirs inv.known unknown
  | @storeIndex place qinfo point here =>
      rw [KeepsRecoverable, point] at allowed
      exact files.storeIndex inv.line inv.dirs inv.index inv.count here (allowed qinfo here)
  | write here pending => exact files.write inv.line inv.dirs here
  | link point => exact files.kept (map_modify _ _ fun _ => rfl) rfl rfl
  | grow point => exact files.kept (map_modify _ _ fun _ => rfl) rfl rfl
  | count point known => exact files.kept (map_modify _ _ fun _ => rfl) rfl rfl
  | _ => exact files.kept rfl rfl rfl

theorem restartInv_step {destination : Nat → List UInt8} {start s next : Delivery}
    {names : List (List UInt8)} {action : DeliveryAction} (inv : RestartInv destination start s names)
    (allowed : KeepsRecoverable PlainName destination start s action)
    (taken : deliveryStep destination s action = some next) :
    RestartInv destination start next (names ++ action.names) where
  line := lineInv_step inv.line taken
  dirs := dirInv_step inv.dirs taken
  index := countedIndex_step inv.line inv.dirs inv.index taken
  count := by
    apply countInv_step inv.count _ taken
    cases action with
    | count worker => exact allowed
    | _ => trivial
  names := nameInv_step inv.names allowed taken
  frames := by
    apply allFrames_step inv.frames inv.line.ids _ taken
    rintro qname object rfl
    exact allowed.2.2
  known := filesKnown_step inv.known taken
  files := filesInv_step inv allowed taken

/-! ### Frames that wait -/

/-- The first frames are counted by their total size. -/
theorem notCounted_append {counted : List FrameObject} (waiting : List FrameObject)
    (sendable : ∀ object ∈ counted, object.frame.Sendable) :
    notCounted (totalSize counted) (counted ++ waiting) = waiting := by
  induction counted with
  | nil =>
      cases waiting with
      | nil => rfl
      | cons object waiting => rw [List.nil_append, notCounted, totalSize_nil, if_pos (Int.le_refl 0)]
  | cons object counted ih =>
      obtain ⟨first, others⟩ := List.forall_mem_cons.mp sendable
      have rest : ∀ object ∈ counted, 0 ≤ object.frame.size := by
        intro object mem
        rw [(others object mem).size_exact]
        exact Int.natCast_nonneg _
      have positive : 0 < (frameBytes object.frame).length := by
        rw [List.length_pos_iff]
        simp [frameBytes]
      have nonneg : 0 ≤ totalSize counted := by
        apply List.sum_nonneg
        intro size mem
        obtain ⟨object, memObject, rfl⟩ := List.mem_map.mp mem
        exact rest object memObject
      have total : totalSize (object :: counted) =
          (frameBytes object.frame).length + totalSize counted := by
        rw [← first.size_exact]
        rfl
      rw [List.cons_append, notCounted, if_neg (by omega), total, add_sub_cancel_left]
      exact ih others

/-- The total size of frames is the number of their bytes. -/
theorem totalSize_eq_length {objects : List FrameObject}
    (sendable : ∀ object ∈ objects, object.frame.Sendable) :
    totalSize objects = (framesBytes objects).length := by
  induction objects with
  | nil => rfl
  | cons object objects ih =>
      obtain ⟨first, others⟩ := List.forall_mem_cons.mp sendable
      have total : totalSize (object :: objects) = object.frame.size + totalSize objects := rfl
      have bytes : framesBytes (object :: objects) = frameBytes object.frame ++ framesBytes objects :=
        rfl
      rw [total, first.size_exact, ih others, bytes, List.length_append]
      rfl

/-- What sendable frames carry. -/
theorem exists_carry {objects : List FrameObject}
    (sendable : ∀ object ∈ objects, object.frame.Sendable) : ∃ sent, Carry objects sent := by
  induction objects with
  | nil => exact ⟨[], .nil⟩
  | cons object objects ih =>
      obtain ⟨first, others⟩ := List.forall_mem_cons.mp sendable
      obtain ⟨sent, carry⟩ := ih others
      exact ⟨first.wire :: sent, .cons first.carries carry⟩

theorem Carry.unique {objects : List FrameObject} {first second : List WireFrame}
    (one : Carry objects first) (two : Carry objects second) : first = second := by
  induction one generalizing second with
  | nil =>
      cases two
      rfl
  | @cons object w objects sent carries _ ih =>
      cases two with
      | @cons _ v _ sent' carries' others =>
          have same : w = v := by
            cases w
            cases v
            cases carries
            cases carries'
            subst_vars
            rfl
          rw [same, ih others]

section Waiting

variable {destination : Nat → List UInt8} {start s : Delivery} {names₀ names : List (List UInt8)}

/-- The files of a queue hold, from the stored index on, the frames that wait. -/
theorem RestartInv.holdsWaiting (inv : RestartInv destination start s names)
    (recoverable : start.Recoverable names₀) {qinfo : QueueInfo} (mem : qinfo ∈ s.pm.qinfos)
    {qname : List UInt8} (dirpath : qinfo.dirpath = queueDir s.pm qname) :
    ∃ sent, Carry (waitingFrames start s qinfo) sent ∧ HoldsFrames s.pm qname sent := by
  have memDir : (qinfo.qid, qinfo.dirpath) ∈ s.pm.dirs := List.mem_map.mpr ⟨qinfo, mem, rfl⟩
  obtain ⟨skipped, counted, waiting, holds⟩ := inv.files.holds _ memDir
  have sendable : ∀ object ∈ counted ++ waiting, object.frame.Sendable := by
    intro object memObject
    rw [← holds.filed] at memObject
    rcases List.mem_append.mp memObject with recovered | written
    · exact recoverable.frames _ object recovered
    · exact inv.frames.written _ (mem_ofHash written)
  have counts := fun object memObject => sendable object (List.mem_append_left waiting memObject)
  have wait : waitingFrames start s qinfo = waiting := by
    have stored : unpersistQueueInfo qinfo.dirpath s.pm = skipped.length + totalSize counted := by
      simp [unpersistQueueInfo, PersistentManager.files, holds.files]
    have filed : filedFrames start s qinfo = counted ++ waiting := holds.filed
    rw [waitingFrames, stored, holds.stored, filed, add_sub_cancel_left]
    exact notCounted_append waiting counts
  obtain ⟨sent, carry⟩ := exists_carry fun object memObject =>
    sendable object (List.mem_append_right counted memObject)
  refine ⟨sent, wait ▸ carry, skipped ++ framesBytes counted, ?_⟩
  rw [← dirpath, holds.files, totalSize_eq_length counts, framesBytes_append, ← framesBytes_carries carry,
    List.append_assoc, List.length_append]
  rfl

/-- The entry of a plain name is the name. -/
theorem topEntry_plain {qname : List UInt8} (plain : PlainName qname) : topEntry qname = qname := by
  obtain ⟨c, rest, rfl⟩ := List.exists_cons_of_ne_nil plain.nonempty
  have clean : ∀ b ∈ c :: rest, b ≠ 47 := fun b mem same => plain.slashless (same ▸ mem)
  have noSlash : (c :: rest).dropWhile (fun c => c = 47) = c :: rest := by
    rw [List.dropWhile_cons_of_neg]
    simpa using clean c List.mem_cons_self
  rw [topEntry, noSlash, List.takeWhile_eq_self_iff]
  intro b mem
  simpa using clean b mem

/-- The entries that `unpersist` reads are the names of the queues. -/
theorem RestartInv.entry_iff (inv : RestartInv destination start s names) {env : StartupEnv}
    (lists : env.Lists s.pm) {entry : List UInt8} (visible : entry.head? ≠ some 46) :
    entry ∈ env.entries ↔ entry ∈ names ∧ (getHash entry, queueDir s.pm entry) ∈ s.pm.dirs := by
  rw [lists.listed entry visible]
  constructor
  · rintro ⟨qname, some, rfl⟩
    obtain ⟨dir, memDir, path⟩ := List.mem_map.mp ((inv.known _).mp some)
    obtain ⟨owner, memOwner, rfl⟩ := inv.names.owned dir memDir
    have plain := inv.names.plain owner memOwner
    have same : cstr owner = cstr qname := List.append_cancel_left path
    rw [← same, cstr_of_not_mem plain.clean, topEntry_plain plain]
    exact ⟨memOwner, memDir⟩
  · rintro ⟨memName, memDir⟩
    have plain := inv.names.plain entry memName
    refine ⟨entry, (inv.known _).mpr (List.mem_map_of_mem memDir), ?_⟩
    · rw [cstr_of_not_mem plain.clean, topEntry_plain plain]

/-- What waits in the directory of each entry. -/
theorem RestartInv.waits (inv : RestartInv destination start s names)
    (recoverable : start.Recoverable names₀) {env : StartupEnv} (lists : env.Lists s.pm)
    (entry : List UInt8) :
    ∃ sent, entry ∈ env.entries → entry.head? ≠ some 46 →
      HoldsFrames s.pm entry sent ∧ ∀ qinfo ∈ s.pm.qinfos, qinfo.qid = getHash entry →
        Carry (waitingFrames start s qinfo) sent := by
  by_cases read : entry ∈ env.entries ∧ entry.head? ≠ some 46
  · obtain ⟨memName, memDir⟩ := (inv.entry_iff lists read.2).mp read.1
    obtain ⟨qinfo, memQinfo, same⟩ := List.mem_map.mp memDir
    obtain ⟨qid, dirpath⟩ := Prod.mk.inj same
    obtain ⟨sent, carry, holds⟩ := inv.holdsWaiting recoverable memQinfo dirpath
    refine ⟨sent, fun _ _ => ⟨holds, fun other memOther hash => ?_⟩⟩
    rw [List.inj_on_of_nodup_map inv.line.ids memOther memQinfo (hash.trans qid.symm)]
    exact carry
  · exact ⟨[], fun mem visible => absurd ⟨mem, visible⟩ read⟩

/-- Each queue has an entry. -/
theorem RestartInv.queue_entry (inv : RestartInv destination start s names) {env : StartupEnv}
    (lists : env.Lists s.pm) {qinfo : QueueInfo} (mem : qinfo ∈ s.pm.qinfos) :
    ∃ entry ∈ env.entries, entry.head? ≠ some 46 ∧ qinfo.qid = getHash entry := by
  have memDir : (qinfo.qid, qinfo.dirpath) ∈ s.pm.dirs := List.mem_map.mpr ⟨qinfo, mem, rfl⟩
  obtain ⟨qname, memName, same⟩ := inv.names.owned _ memDir
  have visible := (inv.names.plain qname memName).visible
  exact ⟨qname, (inv.entry_iff lists visible).mpr ⟨memName, same ▸ memDir⟩, visible,
    congrArg Prod.fst same⟩

/-- No entry shares its hash number with another name. -/
theorem RestartInv.hash_iff (inv : RestartInv destination start s names) {env : StartupEnv}
    (lists : env.Lists s.pm) {entry qname : List UInt8} (mem : entry ∈ env.entries)
    (visible : entry.head? ≠ some 46) (memName : qname ∈ names) :
    getHash entry = getHash qname ↔ entry = cstr qname := by
  obtain ⟨memOwner, memDir⟩ := (inv.entry_iff lists visible).mp mem
  constructor
  · intro hash
    have path := hashFree_iff.mp (inv.names.only qname memName) _ memDir hash
    have same : cstr entry = cstr qname := List.append_cancel_left path
    rwa [cstr_of_not_mem (inv.names.plain entry memOwner).clean] at same
  · intro same
    rw [same, cstr_of_not_mem (inv.names.plain qname memName).clean]

/-- In every run in which each frame is accepted for a plain name that shares its hash number with no
other one, with an exact size, and is counted in order and not before it is written: after a crash in
any state, the frames that wait come back under the names of their queues exactly when they lie in the
blocks of the data files in such a way that they can be read. -/
theorem recovers_by_name_iff (rested : start.Rested) (recoverable : start.Recoverable names₀)
    (reached : Transition.Reaches (recording (deliveryStep destination) DeliveryAction.names)
      (fun s action => KeepsRecoverable PlainName destination start s.1 action)
      (start, names₀) (s, names)) {env : StartupEnv} (lists : env.Lists s.pm) :
    RecoversByName env start s names ↔ WaitingFit start s := by
  have inv : RestartInv destination start s names :=
    reached.recorded_invariant (fun _ _ _ _ inv allowed taken => restartInv_step inv allowed taken)
      (restartInv_start destination rested recoverable)
  choose stored storedSpec using inv.waits recoverable lists
  have shown : Shown env stored env.entries (Startup.init s.pm).pm := by
    refine ⟨lists.once, fun entry mem visible => ?_, fun entry mem visible => ?_,
      fun entry mem visible => ?_⟩
    · exact (inv.names.plain entry ((inv.entry_iff lists visible).mp mem).1).clean
    · exact lists.directories entry mem visible
    · exact (storedSpec entry mem visible).1
  have recovers := entries_recover lists.buffer shown rfl fun _ _ _ => rfl
  constructor
  · rintro ⟨after, taken, back⟩ qinfo mem sent carry
    have fits := recovers.mp ⟨after, taken, fun entry memEntry visible => ?_⟩
    · obtain ⟨entry, memEntry, visible, qid⟩ := inv.queue_entry lists mem
      rw [carry.unique ((storedSpec entry memEntry visible).2 qinfo mem qid)]
      exact fits entry memEntry visible
    · obtain ⟨memName, memDir⟩ := (inv.entry_iff lists visible).mp memEntry
      obtain ⟨other, memOther, same⟩ := List.mem_map.mp memDir
      have qid : other.qid = getHash entry := congrArg Prod.fst same
      exact (back entry memName other memOther qid (stored entry)
        ((storedSpec entry memEntry visible).2 other memOther qid)).1
  · intro fit
    obtain ⟨after, taken, back⟩ := recovers.mpr fun entry memEntry visible => by
      obtain ⟨-, memDir⟩ := (inv.entry_iff lists visible).mp memEntry
      obtain ⟨qinfo, mem, same⟩ := List.mem_map.mp memDir
      exact fit qinfo mem (stored entry)
        ((storedSpec entry memEntry visible).2 qinfo mem (congrArg Prod.fst same))
    refine ⟨after, taken, fun qname memName qinfo mem qid sent carry => ?_⟩
    have plain := inv.names.plain qname memName
    have dirpath : qinfo.dirpath = queueDir s.pm qname := inv.names.only qname memName qinfo mem qid
    have memEntry : qname ∈ env.entries := by
      rw [inv.entry_iff lists plain.visible, ← qid, ← dirpath]
      exact ⟨memName, List.mem_map.mpr ⟨qinfo, mem, rfl⟩⟩
    constructor
    · rw [carry.unique ((storedSpec qname memEntry plain.visible).2 qinfo mem qid)]
      exact back qname memEntry plain.visible
    · obtain ⟨queued, added, total, among⟩ := unpersistEntries_adds shown taken
      have empty : (Startup.init s.pm).Queued := ⟨emptyStore_wellFormed, fun _ => rfl⟩
      rw [(queued empty).contents, Startup.framesUnder]
      congr 1
      apply List.filter_congr
      intro entry memAdded
      rw [total] at memAdded
      obtain ⟨memOther, visible⟩ := among entry memAdded
      exact decide_eq_decide.mpr (inv.hash_iff lists memOther visible memName)

end Waiting

/-! ### One queue -/

theorem init_recoverable (datadir : List UInt8) : (Delivery.init datadir).Recoverable [] where
  plain := nofun
  named := nofun
  queued := nofun
  files := nofun
  frames hashnum object mem := by
    rw [contents_init] at mem
    cases mem
  known _ some := by cases some

/-- A system in which the data directory holds one directory, without directories in it. -/
def oneDirectory (datadir entry : List UInt8) : StartupEnv where
  entries := [cstring ".", cstring "..", entry]
  isDirectory path := path = datadir ++ cstring "/" ++ entry
  rand _ := 0
  rands _ := 0
  frameBuffer _ := List.replicate BUFFER_LEN 0

/-- This is what the system shows when there are files in the directory of one queue. -/
theorem oneDirectory_lists {pm : PersistentManager} {qname : List UInt8} (known : FilesKnown pm)
    (dirs : pm.dirs.map Prod.snd = [queueDir pm qname])
    (visible : (topEntry (cstr qname)).head? ≠ some 46) :
    (oneDirectory pm.datadir (topEntry (cstr qname))).Lists pm := by
  have clean : cstr (topEntry (cstr qname)) = topEntry (cstr qname) := by
    apply cstr_of_not_mem
    intro mem
    have inName : (0 : UInt8) ∈ cstr qname :=
      (List.dropWhile_suffix _).subset ((List.takeWhile_prefix _).subset mem)
    simpa using List.mem_takeWhile_imp inName
  constructor
  case once =>
    have first : topEntry (cstr qname) ≠ cstring "." := fun same => visible (by rw [same]; rfl)
    have second : topEntry (cstr qname) ≠ cstring ".." := fun same => visible (by rw [same]; rfl)
    simp [oneDirectory, first.symm, second.symm]
    decide
  case listed =>
    intro entry seen
    constructor
    · intro mem
      rcases mem with _ | ⟨_, _ | ⟨_, _ | ⟨_, mem⟩⟩⟩
      · exact absurd rfl seen
      · exact absurd rfl seen
      · refine ⟨qname, ?_, rfl⟩
        rw [known, dirs]
        exact List.mem_cons_self
      · cases mem
    · rintro ⟨other, some, rfl⟩
      rw [known, dirs, List.mem_singleton] at some
      have same : cstr other = cstr qname := List.append_cancel_left some
      rw [same]
      simp [oneDirectory]
  case directories =>
    intro entry mem seen
    rcases mem with _ | ⟨_, _ | ⟨_, _ | ⟨_, mem⟩⟩⟩
    · exact absurd rfl seen
    · exact absurd rfl seen
    · simp [StartupEnv.allocates, oneDirectory, queueDir, clean, FNAME_DATA, FNAME_SENT_INDEX]
      decide
    · cases mem
  case buffer => exact fun _ => List.length_replicate

/-- The steps that accept a frame and write it. -/
def writeLetter (qname : List UInt8) (object : FrameObject) : List DeliveryAction :=
  [.accept qname object, .create, .link, .grow, .enqueue, .enter, .storeIndex, .compare, .write]

/-- In a run from a new data directory, the directories with files are those of the objects. -/
theorem filesKnown_run {destination : Nat → List UInt8} {datadir : List UInt8} {s : Delivery}
    {names : List (List UInt8)} {Allowed : Delivery → DeliveryAction → Prop}
    (reached : Transition.Reaches (recording (deliveryStep destination) DeliveryAction.names)
      (fun s action => Allowed s.1 action) (Delivery.init datadir, []) (s, names)) :
    FilesKnown s.pm :=
  @Transition.Reaches.recorded_invariant _ _ _ _ _ _ (fun s _ => FilesKnown s.pm)
    (fun _ _ _ _ known _ taken => filesKnown_step known taken) _ _ _ _ reached
    (filesKnown_start (init_recoverable datadir))

theorem letterA_sendable : letterA.frame.Sendable := by
  decide +kernel

theorem recovers_by_name_letter :
    ∃ s, Transition.run
        (Transition.guarded
          (recording (deliveryStep fun _ => cstring "q") DeliveryAction.names)
          (fun s action => KeepsRecoverable PlainName (fun _ => cstring "q")
            (Delivery.init (cstring "data")) s.1 action))
        (Delivery.init (cstring "data"), []) (writeLetter (cstring "q") letterA) =
          some (s, [cstring "q"]) ∧
      RecoversByName (oneDirectory (cstring "data") (cstring "q")) (Delivery.init (cstring "data")) s
        [cstring "q"] := by
  have taken : ∃ p, Transition.run
        (Transition.guarded
          (recording (deliveryStep fun _ => cstring "q") DeliveryAction.names)
          (fun s action => KeepsRecoverable PlainName (fun _ => cstring "q")
            (Delivery.init (cstring "data")) s.1 action))
        (Delivery.init (cstring "data"), []) (writeLetter (cstring "q") letterA) = some p ∧
      decide (p.2 = [cstring "q"] ∧ p.1.pm.datadir = cstring "data" ∧
        p.1.pm.dirs.map Prod.snd = [cstring "data/q"] ∧
        p.1.pm.qinfos.map (waitingFrames (Delivery.init (cstring "data")) p.1) = [[letterA]]) = true := by
    apply Option.map_eq_some_iff.mp
    decide +kernel
  obtain ⟨⟨s, names⟩, taken, result⟩ := taken
  obtain ⟨rfl, datadir, dirs, waiting⟩ := of_decide_eq_true result
  have reached := Transition.reaches_of_guarded_run taken
  have lists : (oneDirectory s.pm.datadir (topEntry (cstr (cstring "q")))).Lists s.pm := by
    apply oneDirectory_lists (filesKnown_run reached)
    · rw [dirs, queueDir, datadir]
      decide
    · decide
  rw [datadir] at lists
  refine ⟨s, taken, (recovers_by_name_iff (init_rested _) (init_recoverable _) reached lists).mpr ?_⟩
  intro qinfo mem sent carry
  have here : waitingFrames (Delivery.init (cstring "data")) s qinfo = [letterA] :=
    List.mem_singleton.mp (waiting ▸ List.mem_map_of_mem mem)
  rw [here] at carry
  have only : Carry [letterA] [letterA_sendable.wire] := .cons letterA_sendable.carries .nil
  rw [carry.unique only]
  decide +kernel

/-- What `recv_data` makes of a `SEND` frame with the body `a` for the queue `/queue/a`. -/
def letterSlash : FrameObject where
  address := 0
  frame :=
    { letterA.frame with
      hAttrs := [⟨cstring "destination:/queue/a", 20⟩, ⟨cstring "content-length:1", 16⟩]
      size := 46 }

theorem letterSlash_sendable : letterSlash.frame.Sendable := by
  decide +kernel

/-- A frame that was accepted for a name with a slash waits two levels below the data directory, and
does not come back. -/
theorem recovers_not_slash :
    ¬ ∀ s names env, Transition.Reaches
        (recording (deliveryStep fun _ => cstring "/queue/a") DeliveryAction.names)
        (fun s action => KeepsRecoverable AcceptedName (fun _ => cstring "/queue/a")
          (Delivery.init (cstring "data")) s.1 action) (Delivery.init (cstring "data"), []) (s, names) →
      env.Lists s.pm → WaitingFit (Delivery.init (cstring "data")) s →
        RecoversByName env (Delivery.init (cstring "data")) s names := by
  intro always
  have taken : ∃ p, Transition.run
        (Transition.guarded
          (recording (deliveryStep fun _ => cstring "/queue/a") DeliveryAction.names)
          (fun s action => KeepsRecoverable AcceptedName (fun _ => cstring "/queue/a")
            (Delivery.init (cstring "data")) s.1 action))
        (Delivery.init (cstring "data"), []) (writeLetter (cstring "/queue/a") letterSlash) = some p ∧
      decide (p.2 = [cstring "/queue/a"] ∧ p.1.pm.datadir = cstring "data" ∧
        p.1.pm.dirs = [(getHash (cstring "/queue/a"), cstring "data//queue/a")] ∧
        p.1.pm.qinfos.map (waitingFrames (Delivery.init (cstring "data")) p.1) = [[letterSlash]] ∧
        (unpersist (oneDirectory (cstring "data") (cstring "queue")) p.1.pm).map
          (fun after => after.enqueued.length) = some 0) = true := by
    apply Option.map_eq_some_iff.mp
    decide +kernel
  obtain ⟨⟨s, names⟩, taken, result⟩ := taken
  obtain ⟨rfl, datadir, dirs, waiting, enqueued⟩ := of_decide_eq_true result
  have reached := Transition.reaches_of_guarded_run taken
  have lists : (oneDirectory s.pm.datadir (topEntry (cstr (cstring "/queue/a")))).Lists s.pm := by
    apply oneDirectory_lists (filesKnown_run reached)
    · rw [dirs, queueDir, datadir]
      decide
    · decide
  rw [datadir] at lists
  have only : Carry [letterSlash] [letterSlash_sendable.wire] := .cons letterSlash_sendable.carries .nil
  have here : ∀ qinfo ∈ s.pm.qinfos,
      waitingFrames (Delivery.init (cstring "data")) s qinfo = [letterSlash] :=
    fun qinfo mem => List.mem_singleton.mp (waiting ▸ List.mem_map_of_mem mem)
  obtain ⟨after, found, back⟩ := always s _ _ reached lists fun qinfo mem sent carry => by
    rw [here qinfo mem] at carry
    rw [carry.unique only]
    decide +kernel
  obtain ⟨qinfo, mem, same⟩ : ∃ qinfo ∈ s.pm.qinfos, (qinfo.qid, qinfo.dirpath) =
      (getHash (cstring "/queue/a"), cstring "data//queue/a") :=
    List.mem_map.mp (show _ ∈ s.pm.dirs by rw [dirs]; exact List.mem_cons_self)
  have carried := (back _ List.mem_cons_self qinfo mem (congrArg Prod.fst same) _
    ((here qinfo mem).symm ▸ only)).1
  have empty : (topEntry (cstr (cstring "/queue/a"))) = cstring "queue" := by decide
  rw [empty] at found
  rw [found] at enqueued
  have none : after.enqueued = [] := List.length_eq_zero_iff.mp (Option.some.inj enqueued)
  rw [Startup.framesUnder, none] at carried
  cases carried

end Newtmq
