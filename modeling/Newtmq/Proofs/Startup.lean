/-
Module: Newtmq.Proofs.Startup
Purpose: What `unpersist` enqueues. An entry whose frames lie in the blocks of its data file so that
  they can be read gives these frames, under the name of the entry, and nothing else is enqueued under
  that name.
Trusted boundary: none
Main exports: HoldsFrames, unpersistEntry_eq, unpersistEntries_adds, framesUnder_other, entries_recover
-/
import Newtmq.Proofs.Recovery
import Newtmq.Proofs.DeliverySteps
import Newtmq.Spec.Restart

namespace Newtmq

/-! ### The calls of `enqueue` -/

theorem enqueueAll_cons (s : Startup) (qname : List UInt8) (frame : Frame) (frames : List Frame) :
    s.enqueueAll qname (frame :: frames) =
      Startup.enqueueAll
        { s with
          queues := (enqueue (some frame) qname s.queues).2
          enqueued := s.enqueued ++ [(qname, frame)] } qname frames := rfl

theorem enqueueAll_enqueued (s : Startup) (qname : List UInt8) (frames : List Frame) :
    (s.enqueueAll qname frames).enqueued = s.enqueued ++ frames.map fun frame => (qname, frame) := by
  induction frames generalizing s with
  | nil => simp [Startup.enqueueAll]
  | cons frame frames ih =>
      rw [enqueueAll_cons, ih]
      simp

theorem enqueueAll_rest (s : Startup) (qname : List UInt8) (frames : List Frame) :
    (s.enqueueAll qname frames).pm = s.pm ∧ (s.enqueueAll qname frames).prevBuffer = s.prevBuffer := by
  induction frames generalizing s with
  | nil => exact ⟨rfl, rfl⟩
  | cons frame frames ih =>
      rw [enqueueAll_cons]
      exact ih _

/-- The queues hold what has been enqueued, by hash numbers. -/
structure Startup.Queued (s : Startup) : Prop where
  queues : s.queues.WellFormed
  contents : ∀ hashnum, contents hashnum s.queues =
    (s.enqueued.filter fun entry => getHash entry.1 = hashnum).map Prod.snd

theorem Startup.Queued.enqueueAll {s : Startup} (queued : s.Queued) (qname : List UInt8)
    (frames : List Frame) : (s.enqueueAll qname frames).Queued := by
  induction frames generalizing s with
  | nil => exact queued
  | cons frame frames ih =>
      rw [enqueueAll_cons]
      apply ih
      refine ⟨queued.queues.enqueue frame qname, fun hashnum => ?_⟩
      rw [contents_enqueue queued.queues, List.filter_append, List.map_append]
      by_cases same : hashnum = getHash qname
      · subst same
        rw [if_pos rfl, queued.contents]
        simp
      · rw [if_neg same, queued.contents]
        simp [Ne.symm same]

/-! ### One entry -/

/-- The files of a queue hold these frames, from the stored index on. -/
def HoldsFrames (pm : PersistentManager) (qname : List UInt8) (sent : List WireFrame) : Prop :=
  ∃ skipped : List UInt8,
    pm.disk (queueDir pm qname) = some ⟨skipped ++ encodeAll sent, some skipped.length⟩

/-- After `alloc_qinfo` both files of the directory exist, with what could be read of them before. -/
theorem allocQinfo_disk (qname : List UInt8) (pm : PersistentManager) :
    (allocQinfo qname pm).2.disk = Function.update pm.disk (queueDir pm qname)
      (some ⟨pm.dataFile (queueDir pm qname),
        some (unpersistQueueInfo (queueDir pm qname) pm)⟩) := by
  change Function.update (Function.update pm.disk (queueDir pm qname) _) (queueDir pm qname) _ = _
  rw [Function.update_idem]
  congr 2
  simp only [PersistentManager.files, PersistentManager.setFiles, Function.update_apply, if_true]
  rfl

/-- `create_qinfo` leaves the two files as they are, when both exist. -/
theorem createQinfo_disk {pm : PersistentManager} {qname data : List UInt8} {index : Int}
    (held : pm.disk (queueDir pm qname) = some ⟨data, some index⟩) :
    (createQinfo qname pm).2.disk = pm.disk ∧ (createQinfo qname pm).2.datadir = pm.datadir := by
  rw [createQinfo]
  split
  · exact ⟨rfl, rfl⟩
  · refine ⟨?_, rfl⟩
    change (allocQinfo qname pm).2.disk = pm.disk
    rw [allocQinfo_disk, Function.update_eq_self_iff, held]
    simp [PersistentManager.dataFile, unpersistQueueInfo, PersistentManager.files, held]

/-- `unpersist_queue_context`, from the stored index on. -/
theorem unpersistQueueContext_eq (rand : Nat → Nat) {frameBuffer dirpath : List UInt8}
    {pm : PersistentManager} (skipped file : List UInt8)
    (held : pm.disk dirpath = some ⟨skipped ++ file, some skipped.length⟩)
    (prevBuffer : Option (List UInt8)) (rands : Nat) :
    unpersistQueueContext rand frameBuffer dirpath pm prevBuffer rands =
      (fileFrom rand file frameBuffer ⟨0, none, [], prevBuffer, rands⟩).map
        fun st => (.success, st.head, st.prevBuffer) := by
  have stored : unpersistQueueInfo dirpath pm = skipped.length := by
    simp [unpersistQueueInfo, PersistentManager.files, held]
  simp [unpersistQueueContext, stored, held, fileFrom]

/-- The frames of an entry are read from its data file, and enqueued under its name. -/
theorem unpersistEntry_eq {env : StartupEnv} {dName : List UInt8} (visible : dName.head? ≠ some 46)
    {s : Startup} (allocates : env.allocates (queueDir s.pm dName) = true) {sent : List WireFrame}
    (held : HoldsFrames s.pm dName sent) :
    ∃ pm : PersistentManager, pm.disk = s.pm.disk ∧ pm.datadir = s.pm.datadir ∧
      unpersistEntry env dName s =
        (fileFrom env.rand (encodeAll sent) (env.frameBuffer dName)
          ⟨0, none, [], s.prevBuffer, env.rands dName⟩).map fun st =>
            Startup.enqueueAll { s with pm := pm, prevBuffer := st.prevBuffer } dName st.head := by
  obtain ⟨skipped, files⟩ := held
  obtain ⟨disk, datadir⟩ := createQinfo_disk files
  have noDirectory : env.isDirectory (queueDir s.pm dName ++ cstring "/" ++ FNAME_DATA) = false := by
    simp only [StartupEnv.allocates, Bool.and_eq_true, Bool.not_eq_true'] at allocates
    exact allocates.1.2
  have stored : ((createQinfo dName s.pm).2.files (queueDir s.pm dName)).sentIndex =
      some (skipped.length : Int) := by
    rw [PersistentManager.files, disk, files]
    rfl
  let created := createQinfo dName s.pm
  refine ⟨{ created.2 with
      qinfos := (created.2.qinfos.modify created.1 fun qinfo =>
          { qinfo with indexSent := skipped.length }).modify created.1 fun qinfo =>
        { qinfo with
          indexHead := (created.2.files (queueDir s.pm dName)).data.length
          indexPersistent := (created.2.files (queueDir s.pm dName)).data.length } },
    disk, datadir, ?_⟩
  have goes : ¬ (getQinfo (getHash dName) s.pm = none ∧ env.allocates (queueDir s.pm dName) = false) := by
    rintro ⟨-, fails⟩
    rw [allocates] at fails
    cases fails
  have found : created.2.disk (queueDir s.pm dName) =
      some ⟨skipped ++ encodeAll sent, some skipped.length⟩ := disk ▸ files
  rw [unpersistEntry, if_neg visible]
  simp only [← queueDir.eq_1]
  rw [if_neg goes]
  simp only [stored, noDirectory, Bool.false_eq_true, if_false]
  rw [unpersistQueueContext_eq env.rand skipped (encodeAll sent) ?_]
  · cases fileFrom env.rand (encodeAll sent) (env.frameBuffer dName)
        ⟨0, none, [], s.prevBuffer, env.rands dName⟩ with
    | none => rfl
    | some st => rfl
  · exact found

/-! ### The loop over the entries -/

/-- The entries that are still to be read: each comes once, and those that are not skipped are
directories that hold the frames `stored`. -/
structure Shown (env : StartupEnv) (stored : List UInt8 → List WireFrame) (entries : List (List UInt8))
    (pm : PersistentManager) : Prop where
  once : entries.Nodup
  clean : ∀ entry ∈ entries, entry.head? ≠ some 46 → (0 : UInt8) ∉ entry
  allocates : ∀ entry ∈ entries, entry.head? ≠ some 46 → env.allocates (queueDir pm entry) = true
  holds : ∀ entry ∈ entries, entry.head? ≠ some 46 → HoldsFrames pm entry (stored entry)

/-- The objects of `pm` do not matter, and neither does an entry that has been read. -/
theorem Shown.tail {env : StartupEnv} {stored : List UInt8 → List WireFrame} {entry : List UInt8}
    {entries : List (List UInt8)} {pm next : PersistentManager}
    (shown : Shown env stored (entry :: entries) pm) (disk : next.disk = pm.disk)
    (datadir : next.datadir = pm.datadir) : Shown env stored entries next where
  once := (List.nodup_cons.mp shown.once).2
  clean other mem := shown.clean other (List.mem_cons_of_mem entry mem)
  allocates other mem visible := by
    rw [queueDir, datadir]
    exact shown.allocates other (List.mem_cons_of_mem entry mem) visible
  holds other mem visible := by
    rw [HoldsFrames, queueDir, disk, datadir]
    exact shown.holds other (List.mem_cons_of_mem entry mem) visible

section Entries

variable {env : StartupEnv} {stored : List UInt8 → List WireFrame}

/-- An entry adds frames under its own name. -/
theorem unpersistEntry_adds {entry : List UInt8} {entries : List (List UInt8)} {s next : Startup}
    (shown : Shown env stored (entry :: entries) s.pm)
    (taken : unpersistEntry env entry s = some next) :
    Shown env stored entries next.pm ∧ (s.Queued → next.Queued) ∧
      ∃ frames, next.enqueued = s.enqueued ++ frames.map (fun frame => (entry, frame)) ∧
        (frames ≠ [] → entry.head? ≠ some 46) := by
  by_cases visible : entry.head? = some 46
  · rw [unpersistEntry, if_pos visible] at taken
    cases taken
    exact ⟨shown.tail rfl rfl, id, [], by simp, fun some => absurd rfl some⟩
  · obtain ⟨pm, disk, datadir, read⟩ := unpersistEntry_eq visible
      (shown.allocates entry List.mem_cons_self visible) (shown.holds entry List.mem_cons_self visible)
    rw [read] at taken
    obtain ⟨st, -, rfl⟩ := Option.map_eq_some_iff.mp taken
    refine ⟨?_, fun queued => ?_, st.head, ?_, fun _ => visible⟩
    · rw [(enqueueAll_rest _ _ _).1]
      exact shown.tail disk datadir
    · apply Startup.Queued.enqueueAll
      exact ⟨queued.queues, queued.contents⟩
    · rw [enqueueAll_enqueued]

/-- The entries add frames under their own names. -/
theorem unpersistEntries_adds {entries : List (List UInt8)} {s after : Startup}
    (shown : Shown env stored entries s.pm)
    (taken : entries.foldlM (fun s entry => unpersistEntry env entry s) s = some after) :
    (s.Queued → after.Queued) ∧
      ∃ added, after.enqueued = s.enqueued ++ added ∧
        ∀ entry ∈ added, entry.1 ∈ entries ∧ entry.1.head? ≠ some 46 := by
  induction entries generalizing s with
  | nil =>
      cases taken
      exact ⟨id, [], (List.append_nil _).symm, fun _ mem => absurd mem List.not_mem_nil⟩
  | cons entry entries ih =>
      rw [List.foldlM_cons] at taken
      obtain ⟨next, first, others⟩ := Option.bind_eq_some_iff.mp taken
      obtain ⟨shownNext, queuedNext, frames, enqueued, visible⟩ := unpersistEntry_adds shown first
      obtain ⟨queued, added, total, among⟩ := ih shownNext others
      refine ⟨queued ∘ queuedNext, frames.map (fun frame => (entry, frame)) ++ added, ?_, ?_⟩
      · rw [total, enqueued, List.append_assoc]
      · intro other mem
        rcases List.mem_append.mp mem with here | later
        · obtain ⟨frame, memFrame, rfl⟩ := List.mem_map.mp here
          exact ⟨List.mem_cons_self, visible (List.ne_nil_of_mem memFrame)⟩
        · exact ⟨List.mem_cons_of_mem entry (among other later).1, (among other later).2⟩

theorem framesUnder_append {s next : Startup} {added : List (List UInt8 × Frame)}
    (total : next.enqueued = s.enqueued ++ added) (qname : List UInt8) :
    next.framesUnder qname = s.framesUnder qname ++
      (added.filter fun entry => entry.1 = cstr qname).map Prod.snd := by
  rw [Startup.framesUnder, total, List.filter_append, List.map_append]
  rfl

/-- Entries with other names add nothing under a name. -/
theorem framesUnder_other {entries : List (List UInt8)} {s after : Startup}
    (shown : Shown env stored entries s.pm)
    (taken : entries.foldlM (fun s entry => unpersistEntry env entry s) s = some after)
    {qname : List UInt8} (other : cstr qname ∉ entries) :
    after.framesUnder qname = s.framesUnder qname := by
  obtain ⟨-, added, total, among⟩ := unpersistEntries_adds shown taken
  have none : (added.filter fun entry => entry.1 = cstr qname) = [] := by
    rw [List.filter_eq_nil_iff]
    intro entry mem
    rw [decide_eq_true_eq]
    intro same
    exact other (same ▸ (among entry mem).1)
  rw [framesUnder_append total, none]
  simp

/-- The frames of an entry come under its name only. -/
theorem framesUnder_entry {entry : List UInt8} {frames : List Frame} {s next : Startup}
    (total : next.enqueued = s.enqueued ++ frames.map fun frame => (entry, frame)) (qname : List UInt8) :
    next.framesUnder qname = s.framesUnder qname ++ if entry = cstr qname then frames else [] := by
  rw [framesUnder_append total]
  by_cases same : entry = cstr qname <;> simp [same, List.filter_map, Function.comp_def]

/-- An entry that is not skipped: when its frames come under its name they can be read, and when they can
be read they come there. -/
theorem unpersistEntry_recovers (sized : ∀ entry, (env.frameBuffer entry).length = BUFFER_LEN)
    {entry : List UInt8} {entries : List (List UInt8)} {s : Startup}
    (shown : Shown env stored (entry :: entries) s.pm) (visible : entry.head? ≠ some 46)
    (saved : s.prevBuffer = none) (fresh : s.framesUnder entry = []) :
    (∀ next, unpersistEntry env entry s = some next →
        List.Forall₂ Frame.Carries (next.framesUnder entry) (stored entry) → BlocksFit (stored entry)) ∧
      (BlocksFit (stored entry) → ∃ next, unpersistEntry env entry s = some next ∧
        next.prevBuffer = none ∧
          List.Forall₂ Frame.Carries (next.framesUnder entry) (stored entry)) := by
  have name : cstr entry = entry := cstr_of_not_mem (shown.clean entry List.mem_cons_self visible)
  obtain ⟨pm, disk, datadir, read⟩ := unpersistEntry_eq visible
    (shown.allocates entry List.mem_cons_self visible) (shown.holds entry List.mem_cons_self visible)
  rw [saved] at read
  obtain ⟨fitsIff, reads⟩ := fileFrom_recovers env.rand (stored entry) (sized entry) (env.rands entry)
  -- What is read is all that comes under the name of the entry.
  have own : ∀ st : UnpersistState, (Startup.enqueueAll
      { s with pm := pm, prevBuffer := st.prevBuffer } entry st.head).framesUnder entry = st.head := by
    intro st
    rw [framesUnder_entry (enqueueAll_enqueued _ entry st.head), if_pos name.symm]
    exact (congrArg (· ++ st.head) fresh).trans (List.nil_append _)
  constructor
  · intro next taken recovered
    rw [read] at taken
    obtain ⟨st, found, rfl⟩ := Option.map_eq_some_iff.mp taken
    rw [own] at recovered
    exact fitsIff.mp ⟨st, found, recovered⟩
  · intro fits
    obtain ⟨st, found, all, none⟩ := reads fits
    rw [read, found]
    refine ⟨_, rfl, ?_, ?_⟩
    · rw [(enqueueAll_rest _ _ _).2]
      exact none
    · rw [own]
      exact all

/-- The loop comes to its end with the frames of each entry under its name, exactly when the frames of
each entry can be read. -/
theorem entries_recover (sized : ∀ entry, (env.frameBuffer entry).length = BUFFER_LEN)
    {entries : List (List UInt8)} {s : Startup} (shown : Shown env stored entries s.pm)
    (saved : s.prevBuffer = none)
    (fresh : ∀ entry ∈ entries, entry.head? ≠ some 46 → s.framesUnder entry = []) :
    (∃ after, entries.foldlM (fun s entry => unpersistEntry env entry s) s = some after ∧
        ∀ entry ∈ entries, entry.head? ≠ some 46 →
          List.Forall₂ Frame.Carries (after.framesUnder entry) (stored entry)) ↔
      ∀ entry ∈ entries, entry.head? ≠ some 46 → BlocksFit (stored entry) := by
  induction entries generalizing s with
  | nil =>
      constructor
      · intro _ entry mem
        cases mem
      · intro _
        refine ⟨s, rfl, fun entry mem => ?_⟩
        cases mem
  | cons entry entries ih =>
      obtain ⟨notLater, -⟩ := List.nodup_cons.mp shown.once
      by_cases visible : entry.head? = some 46
      · -- The entry is skipped.
        have skip : unpersistEntry env entry s = some s := by rw [unpersistEntry, if_pos visible]
        rw [List.foldlM_cons, skip, Option.bind_eq_bind, Option.bind_some]
        have rest := ih (shown.tail rfl rfl) saved
          fun other mem => fresh other (List.mem_cons_of_mem entry mem)
        simp only [List.forall_mem_cons, visible, not_true_eq_false, ne_eq, false_imp_iff,
          true_and]
        exact rest
      · obtain ⟨fitting, reads⟩ := unpersistEntry_recovers sized shown visible saved
          (fresh entry List.mem_cons_self visible)
        -- The later entries have other names.
        have kept : ∀ {next after}, unpersistEntry env entry s = some next →
            entries.foldlM (fun s entry => unpersistEntry env entry s) next = some after →
              after.framesUnder entry = next.framesUnder entry := by
          intro next after first others
          apply framesUnder_other (unpersistEntry_adds shown first).1 others
          rw [cstr_of_not_mem (shown.clean entry List.mem_cons_self visible)]
          exact notLater
        have freshNext : ∀ {next}, unpersistEntry env entry s = some next →
            ∀ other ∈ entries, other.head? ≠ some 46 → next.framesUnder other = [] := by
          intro next first other mem seen
          obtain ⟨-, -, frames, total, -⟩ := unpersistEntry_adds shown first
          have apart : entry ≠ cstr other := by
            rw [cstr_of_not_mem (shown.clean other (List.mem_cons_of_mem entry mem) seen)]
            rintro rfl
            exact notLater mem
          rw [framesUnder_entry total, if_neg apart, List.append_nil]
          exact fresh other (List.mem_cons_of_mem entry mem) seen
        constructor
        · rintro ⟨after, taken, recovered⟩
          obtain ⟨next, first, others⟩ := Option.bind_eq_some_iff.mp taken
          have here := recovered entry List.mem_cons_self visible
          rw [kept first others] at here
          have fits := fitting next first here
          obtain ⟨same, found, none, -⟩ := reads fits
          cases found.symm.trans first
          have rest := ih (unpersistEntry_adds shown first).1 none (freshNext first)
          refine List.forall_mem_cons.mpr ⟨fun _ => fits, rest.mp ⟨after, others, fun other mem => ?_⟩⟩
          exact recovered other (List.mem_cons_of_mem entry mem)
        · intro fits
          obtain ⟨here, others⟩ := List.forall_mem_cons.mp fits
          obtain ⟨next, first, none, all⟩ := reads (here visible)
          have rest := ih (unpersistEntry_adds shown first).1 none (freshNext first)
          obtain ⟨after, taken, recovered⟩ := rest.mpr others
          refine ⟨after, ?_, List.forall_mem_cons.mpr ⟨fun _ => ?_, recovered⟩⟩
          · rw [List.foldlM_cons, first]
            exact taken
          · rw [kept first taken]
            exact all

end Entries

end Newtmq
