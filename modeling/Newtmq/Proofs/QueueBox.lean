/-
Module: Newtmq.Proofs.QueueBox
Purpose: The queuebox links each queue object in exactly one of its lists, and no two objects have one hash
  number. A listing therefore shows each queue once, with what the calls before it put there, and a cleanup
  frees each queue and each entry once and leaves a queuebox that answers as a fresh one.
Trusted boundary: none
Main exports: QueueStore.Linked, QueueboxInv, queueboxInv_storeAfter, Cleared, queues_listed, queuebox_cleaned
-/
import Mathlib.Data.List.Induction
import Mathlib.Data.List.Nodup
import Mathlib.Data.List.Perm.Lattice
import Newtmq.Proofs.QueueMap
import Newtmq.Spec.QueueBox

namespace Newtmq

universe u

variable {α : Type u}

/-! ### Where the queue objects are linked -/

/-- Each list links the objects whose hash numbers lead to it, each once. -/
structure QueueStore.Linked (store : QueueStore α) : Prop where
  nodup : ∀ index, (store.bucket index).Nodup
  mem : ∀ index address, address ∈ store.bucket index ↔
    ∃ queue, store.objects[address]? = some queue ∧ bucketIndex queue.hashnum = index

theorem QueueStore.Linked.lt {store : QueueStore α} (linked : store.Linked) {index : Fin QB_SIZE}
    {address : Nat} (mem : address ∈ store.bucket index) : address < store.objects.length := by
  obtain ⟨queue, found, -⟩ := (linked.mem index address).mp mem
  exact (List.getElem?_eq_some_iff.mp found).1

theorem QueueStore.Linked.wellFormed {store : QueueStore α} (linked : store.Linked) :
    store.WellFormed where
  below _ _ mem := linked.lt mem

theorem emptyStore_linked : (QueueStore.empty : QueueStore α).Linked where
  nodup index := by simp [QueueStore.empty, QueueStore.bucket]
  mem index address := by simp [QueueStore.empty, QueueStore.bucket]

theorem QueueStore.Linked.initBucket {store : QueueStore α} (linked : store.Linked)
    (qname : List UInt8) : (Newtmq.initBucket qname store).Linked where
  nodup index := by simpa using linked.nodup index
  mem index address := by simpa using linked.mem index address

theorem QueueStore.Linked.insertQueue {store : QueueStore α} (linked : store.Linked)
    (qname : List UInt8) : (Newtmq.insertQueue qname store).2.Linked where
  nodup index := by
    rw [bucket_insertQueue]
    split
    · exact List.nodup_cons.mpr ⟨fun mem => absurd (linked.lt mem) (lt_irrefl _), linked.nodup index⟩
    · exact linked.nodup index
  mem index address := by
    rw [bucket_insertQueue]
    rcases lt_trichotomy address store.objects.length with old | rfl | beyond
    · rw [objects_insertQueue_old old, ← linked.mem index address]
      split
      · simp [old.ne]
      · rfl
    · have absent : store.objects.length ∉ store.bucket index := fun mem =>
        absurd (linked.lt mem) (lt_irrefl _)
      rw [objects_insertQueue_new]
      by_cases same : index = bucketIndex (getHash qname)
      · simp [same]
      · simp [same, absent, Ne.symm same]
    · have absent : address ∉ store.bucket index := fun mem => absurd (linked.lt mem) beyond.not_gt
      have none : (Newtmq.insertQueue qname store).2.objects[address]? = none :=
        List.getElem?_eq_none_iff.mpr
          (by simpa [Newtmq.insertQueue, Nat.succ_le_iff] using beyond)
      rw [none]
      split
      · simp [absent, beyond.ne']
      · simp [absent]

theorem QueueStore.Linked.withEntries {store : QueueStore α} (linked : store.Linked) (address : Nat)
    (f : List α → List α) (count : Int → Int) : (Newtmq.withEntries address f count store).Linked where
  nodup index := linked.nodup index
  mem index other := by
    rw [bucket_withEntries, linked.mem index other, Newtmq.withEntries]
    simp only [List.getElem?_modify]
    by_cases same : address = other
    · subst same
      cases store.objects[address]? <;> simp
    · simp [same]

/-- A hash number that is not found belongs to no object. -/
theorem QueueStore.Linked.lookup_none {store : QueueStore α} (linked : store.Linked) {hashnum : UInt64}
    (absent : lookup hashnum store = none) {address : Nat} {queue : Queue α}
    (found : store.objects[address]? = some queue) : queue.hashnum ≠ hashnum := by
  rintro rfl
  rw [lookup_eq_find, List.find?_eq_none] at absent
  refine absent address ?_ (hasHash_iff.mpr ⟨queue, found, rfl⟩)
  exact List.mem_reverse.mpr ((linked.mem _ _).mpr ⟨queue, found, rfl⟩)

/-- The lists together link each object once. -/
theorem QueueStore.Linked.getQueuelist_perm {store : QueueStore α} (linked : store.Linked) :
    (getQueuelist store).Perm (List.range store.objects.length) := by
  have nodup : (getQueuelist store).Nodup := by
    refine List.nodup_flatMap.mpr ⟨fun index _ => linked.nodup index, ?_⟩
    refine (List.nodup_finRange QB_SIZE).imp fun {first second} different address one two => ?_
    obtain ⟨queue, found, rfl⟩ := (linked.mem first address).mp one
    obtain ⟨queue', found', rfl⟩ := (linked.mem second address).mp two
    rw [found] at found'
    cases found'
    exact different rfl
  refine (List.perm_ext_iff_of_nodup nodup List.nodup_range).mpr fun address => ?_
  rw [getQueuelist, List.mem_flatMap, List.mem_range]
  constructor
  · rintro ⟨index, -, mem⟩
    exact linked.lt mem
  · intro lt
    exact ⟨_, List.mem_finRange _, (linked.mem _ _).mpr ⟨_, List.getElem?_eq_getElem lt, rfl⟩⟩

/-! ### What the calls leave in the objects -/

@[simp] theorem storeAfter_append (calls : List (QueueCall α)) (call : QueueCall α) :
    storeAfter (calls ++ [call]) = storeAfterCall (storeAfter calls) call := by
  simp [storeAfter]

/-- A call that uses no name changes nothing. -/
theorem storeAfterCall_unused {call : QueueCall α} (unused : call.used = none) (store : QueueStore α) :
    storeAfterCall store call = store := by
  cases call with
  | enqueue data qname => cases data with
    | none => rfl
    | some data => cases unused
  | dequeue qname => cases unused

/-- A call first gets the object, then changes its entries and its counter. -/
def QueueCall.change : QueueCall α → Queue α → Queue α
  | .enqueue (some data) _, queue =>
      { queue with entries := queue.entries ++ [data], count := wrap32 (queue.count + 1) }
  | .enqueue none _, queue => queue
  | .dequeue _, queue => { queue with entries := queue.entries.tail }

theorem storeAfterCall_used {call : QueueCall α} {qname : List UInt8} (used : call.used = some qname)
    (store : QueueStore α) :
    ∃ f count, storeAfterCall store call =
        withEntries (getQueue qname store).1 f count (getQueue qname store).2 ∧
      ∀ queue, call.change queue = { queue with entries := f queue.entries, count := count queue.count } := by
  cases call with
  | enqueue data name => cases data with
    | none => cases used
    | some data =>
        cases used
        exact ⟨(· ++ [data]), (fun count => wrap32 (count + 1)), rfl, fun _ => rfl⟩
  | dequeue name =>
      cases used
      exact ⟨List.tail, id, rfl, fun _ => rfl⟩

theorem usedNames_append (calls : List (QueueCall α)) (call : QueueCall α) :
    usedNames (calls ++ [call]) = call.addName (usedNames calls) := by
  simp [usedNames]

theorem addName_used {call : QueueCall α} {qname : List UInt8} (used : call.used = some qname)
    (names : List (List UInt8)) :
    call.addName names = if getHash qname ∈ names.map getHash then names else names ++ [qname] := by
  simp [QueueCall.addName, used]

theorem addName_unused {call : QueueCall α} (unused : call.used = none) (names : List (List UInt8)) :
    call.addName names = names := by
  simp [QueueCall.addName, unused]

theorem hash_mem_addName {call : QueueCall α} {qname : List UInt8} (used : call.used = some qname)
    (names : List (List UInt8)) : getHash qname ∈ (call.addName names).map getHash := by
  rw [addName_used used]
  split
  · assumption
  · simp

theorem mem_addName {names : List (List UInt8)} {qname : List UInt8} (mem : qname ∈ names)
    (call : QueueCall α) : qname ∈ call.addName names := by
  unfold QueueCall.addName
  split
  · split
    · exact mem
    · exact List.mem_append_left _ mem
  · exact mem

/-- No two names in use have one hash number. -/
theorem usedNames_nodup (calls : List (QueueCall α)) : ((usedNames calls).map getHash).Nodup := by
  induction calls using List.reverseRecOn with
  | nil => exact List.nodup_nil
  | append_singleton calls call ih =>
      rw [usedNames_append, QueueCall.addName]
      split
      · split
        · exact ih
        · rename_i absent
          rw [List.map_append, List.map_singleton]
          exact List.Nodup.append ih (List.nodup_singleton _) (by simpa using absent)
      · exact ih

/-- A call changes what its own queue shows, and no other. -/
theorem summary_append (calls : List (QueueCall α)) (call : QueueCall α) (qname : List UInt8) :
    summary (calls ++ [call]) qname =
      if call.used.map getHash = some (getHash qname) then call.change (summary calls qname)
      else summary calls qname := by
  cases call with
  | enqueue data name => cases data with
    | none => simp [summary, waiting, enqueued, QueueCall.await, QueueCall.enqueues, QueueCall.used]
    | some data =>
        by_cases same : getHash name = getHash qname
        · simp [summary, waiting, enqueued, QueueCall.await, QueueCall.enqueues, QueueCall.used,
            QueueCall.change, same]
        · simp [summary, waiting, enqueued, QueueCall.await, QueueCall.enqueues, QueueCall.used, same]
  | dequeue name =>
      by_cases same : getHash name = getHash qname
      · simp [summary, waiting, enqueued, QueueCall.await, QueueCall.enqueues, QueueCall.used,
          QueueCall.change, same]
      · simp [summary, waiting, enqueued, QueueCall.await, QueueCall.enqueues, QueueCall.used, same]

/-- Under a hash number that no call used, nothing was enqueued. -/
theorem summary_unused {calls : List (QueueCall α)} {qname : List UInt8}
    (absent : getHash qname ∉ (usedNames calls).map getHash) :
    summary calls qname = ⟨getHash qname, (cstr qname).take QNAME_LENGTH, [], 0⟩ := by
  induction calls using List.reverseRecOn with
  | nil => simp [summary, waiting, enqueued, wrap32]
  | append_singleton calls call ih =>
      rw [usedNames_append] at absent
      have other : call.used.map getHash ≠ some (getHash qname) := by
        cases used : call.used with
        | none => simp
        | some name =>
            simp only [Option.map_some, ne_eq, Option.some.injEq]
            intro same
            exact absent (same ▸ hash_mem_addName used _)
      rw [summary_append, if_neg other]
      refine ih fun mem => absent ?_
      obtain ⟨name, inUse, same⟩ := List.mem_map.mp mem
      exact List.mem_map.mpr ⟨name, mem_addName inUse call, same⟩

/-! ### The invariant of the queuebox -/

/-- What the queuebox is after some calls. -/
structure QueueboxInv (calls : List (QueueCall α)) (store : QueueStore α) : Prop where
  linked : store.Linked
  objects : store.objects = (usedNames calls).map (summary calls)

/-- The object that `get_queue` gives is the one of the name in use with this hash number. -/
theorem QueueboxInv.getQueue {calls : List (QueueCall α)} {store : QueueStore α}
    (inv : QueueboxInv calls store) {call : QueueCall α} {qname : List UInt8}
    (used : call.used = some qname) :
    ∃ address store' name, Newtmq.getQueue qname store = (address, store') ∧ store'.Linked ∧
      store'.objects = (call.addName (usedNames calls)).map (summary calls) ∧
      (call.addName (usedNames calls))[address]? = some name ∧ getHash name = getHash qname := by
  have linked := inv.linked.initBucket qname
  have objects : (initBucket qname store).objects = (usedNames calls).map (summary calls) := by
    rw [objects_initBucket, inv.objects]
  rw [addName_used used]
  cases found : lookup (getHash qname) (initBucket qname store) with
  | some address =>
      obtain ⟨queue, atAddress, same⟩ := hasHash_iff.mp (lookup_some found).2
      rw [objects, List.getElem?_map, Option.map_eq_some_iff] at atAddress
      obtain ⟨name, inUse, rfl⟩ := atAddress
      have known : getHash qname ∈ (usedNames calls).map getHash :=
        List.mem_map.mpr ⟨name, List.mem_of_getElem? inUse, same⟩
      rw [if_pos known]
      exact ⟨address, initBucket qname store, name, by simp [Newtmq.getQueue, found], linked, objects,
        inUse, same⟩
  | none =>
      have fresh : getHash qname ∉ (usedNames calls).map getHash := by
        intro known
        obtain ⟨name, inUse, same⟩ := List.mem_map.mp known
        obtain ⟨address, atAddress⟩ := List.getElem?_of_mem inUse
        have object : (initBucket qname store).objects[address]? = some (summary calls name) := by
          rw [objects, List.getElem?_map, atAddress, Option.map_some]
        exact linked.lookup_none found object same
      rw [if_neg fresh]
      refine ⟨_, _, qname, by simp only [Newtmq.getQueue, found]; rfl, linked.insertQueue qname, ?_, ?_,
        rfl⟩
      · simp only [insertQueue, objects, List.map_append, List.map_singleton, summary_unused fresh]
      · have length : store.objects.length = (usedNames calls).length := by simp [inv.objects]
        simp [length]

/-- In a list without repetition, the element at one address is the one element with its key. -/
theorem modify_map_of_nodup {β γ κ : Type*} [DecidableEq κ] {names : List β} {key : β → κ}
    (nodup : (names.map key).Nodup) {address : Nat} {name : β} (at_ : names[address]? = some name)
    (g : β → γ) (f : γ → γ) :
    (names.map g).modify address f =
      names.map fun other => if key name = key other then f (g other) else g other := by
  refine List.ext_getElem? fun i => ?_
  rw [List.getElem?_modify, List.getElem?_map, List.getElem?_map]
  cases there : names[i]? with
  | none => simp
  | some other =>
      have bound : address < (names.map key).length := by
        simpa using (List.getElem?_eq_some_iff.mp at_).1
      have same : key name = key other ↔ address = i := by
        constructor
        · intro keys
          refine (List.getElem?_inj bound nodup).mp ?_
          rw [List.getElem?_map, List.getElem?_map, at_, there, Option.map_some, Option.map_some, keys]
        · rintro rfl
          rw [at_] at there
          cases there
          rfl
      by_cases h : address = i
      · simp [h, same.mpr h]
      · simp [h, mt same.mp h]

theorem QueueboxInv.step {calls : List (QueueCall α)} {store : QueueStore α}
    (inv : QueueboxInv calls store) (call : QueueCall α) :
    QueueboxInv (calls ++ [call]) (storeAfterCall store call) := by
  cases used : call.used with
  | none =>
      rw [storeAfterCall_unused used]
      refine ⟨inv.linked, ?_⟩
      rw [usedNames_append, addName_unused used, inv.objects]
      exact List.map_congr_left fun name _ => by rw [summary_append, used]; rfl
  | some qname =>
      obtain ⟨f, count, after, change⟩ := storeAfterCall_used used store
      obtain ⟨address, store', name, got, linked, objects, inUse, same⟩ := inv.getQueue used
      rw [after, got]
      refine ⟨linked.withEntries address f count, ?_⟩
      have nodup : ((call.addName (usedNames calls)).map getHash).Nodup := by
        rw [← usedNames_append]
        exact usedNames_nodup (calls ++ [call])
      rw [usedNames_append, withEntries]
      simp only [objects, modify_map_of_nodup nodup inUse]
      refine List.map_congr_left fun other _ => ?_
      simp only [summary_append, used, Option.map_some, Option.some.injEq, same, change]

/-- The invariant holds after every sequence of calls. -/
theorem queueboxInv_storeAfter (calls : List (QueueCall α)) : QueueboxInv calls (storeAfter calls) := by
  induction calls using List.reverseRecOn with
  | nil => exact ⟨emptyStore_linked, rfl⟩
  | append_singleton calls call ih =>
      rw [storeAfter_append]
      exact ih.step call

/-! ### The listing -/

/-- A listing shows each hash number in use once: the name it was first used under, the data that waits in
order, and the count of the calls of `enqueue`. It shows nothing else. -/
theorem queues_listed (calls : List (QueueCall α)) :
    ((getQueuelist (storeAfter calls)).map ((storeAfter calls).objects[·]?)).Perm
      ((usedNames calls).map fun qname => some (summary calls qname)) := by
  have inv := queueboxInv_storeAfter calls
  refine (inv.linked.getQueuelist_perm.map _).trans (List.Perm.of_eq ?_)
  have all : (List.range (storeAfter calls).objects.length).map ((storeAfter calls).objects[·]?) =
      (storeAfter calls).objects.map some := by
    refine List.ext_getElem (by simp) fun i _ _ => ?_
    simp
  rw [all, inv.objects, List.map_map]
  rfl

/-! ### The cleanup -/

/-- The state of `cleanup_queuebox` when it has gone through some indices. -/
structure Cleared (store : QueueStore α) (done : List (Fin QB_SIZE)) (s : Cleanup α) : Prop where
  emptied : ∀ index ∈ done, s.store.bucket index = []
  kept : ∀ index ∉ done, s.store.bucket index = store.bucket index
  queues : s.queues = done.flatMap store.bucket
  entries : s.entries = (done.flatMap store.bucket).flatMap store.entriesAt
  untouched : ∀ address ∉ done.flatMap store.bucket, s.store.objects[address]? = store.objects[address]?

theorem bucket_clearQueue (index : Fin QB_SIZE) (s : Cleanup α) (address : Nat) (other : Fin QB_SIZE) :
    (clearQueue index s address).store.bucket other =
      if other = index then (s.store.bucket index).erase address else s.store.bucket other := by
  by_cases same : other = index
  · subst same
    cases h : s.store.queuebox other <;> simp [clearQueue, QueueStore.bucket, h]
  · simp [clearQueue, QueueStore.bucket, same]

theorem objects_clearQueue {address other : Nat} (different : other ≠ address) (index : Fin QB_SIZE)
    (s : Cleanup α) :
    (clearQueue index s address).store.objects[other]? = s.store.objects[other]? := by
  simp [clearQueue, Ne.symm different]

/-- The inner loop frees the objects of one list in its order. -/
theorem clearList (index : Fin QB_SIZE) : ∀ (addresses : List Nat) (s : Cleanup α), addresses.Nodup →
    s.store.bucket index = addresses →
    (addresses.foldl (clearQueue index) s).store.bucket index = [] ∧
    (∀ other ≠ index, (addresses.foldl (clearQueue index) s).store.bucket other = s.store.bucket other) ∧
    (addresses.foldl (clearQueue index) s).queues = s.queues ++ addresses ∧
    (addresses.foldl (clearQueue index) s).entries =
      s.entries ++ addresses.flatMap s.store.entriesAt ∧
    ∀ address ∉ addresses, (addresses.foldl (clearQueue index) s).store.objects[address]? =
      s.store.objects[address]?
  | [], s, _, at_ => by simp [at_]
  | address :: rest, s, nodup, at_ => by
      obtain ⟨absent, nodupRest⟩ := List.nodup_cons.mp nodup
      have left : (clearQueue index s address).store.bucket index = rest := by
        rw [bucket_clearQueue, if_pos rfl, at_, List.erase_cons_head]
      obtain ⟨emptied, kept, queues, entries, untouched⟩ := clearList index rest _ nodupRest left
      have later : rest.flatMap (clearQueue index s address).store.entriesAt =
          rest.flatMap s.store.entriesAt := by
        refine List.flatMap_congr fun other mem => ?_
        have different : other ≠ address := fun same => absent (same ▸ mem)
        rw [QueueStore.entriesAt, QueueStore.entriesAt, objects_clearQueue different]
      refine ⟨emptied, ?_, ?_, ?_, ?_⟩
      · intro other different
        rw [List.foldl_cons, kept other different, bucket_clearQueue, if_neg different]
      · rw [List.foldl_cons, queues, clearQueue, List.append_assoc, List.singleton_append]
      · rw [List.foldl_cons, entries, later, List.flatMap_cons, ← List.append_assoc]
        rfl
      · intro other notMem
        rw [List.mem_cons, not_or] at notMem
        rw [List.foldl_cons, untouched other notMem.2, objects_clearQueue notMem.1]

/-- An object is in one list only, so what an index frees was not touched before. -/
theorem Cleared.step {store : QueueStore α} (linked : store.Linked) {done : List (Fin QB_SIZE)}
    {s : Cleanup α} (cleared : Cleared store done s) {index : Fin QB_SIZE} (fresh : index ∉ done) :
    Cleared store (done ++ [index]) (cleanupIndex s index) := by
  have here := cleared.kept index fresh
  obtain ⟨emptied, kept, queues, entries, untouched⟩ :=
    clearList index (store.bucket index) s (linked.nodup index) here
  have elsewhere : ∀ address ∈ store.bucket index, address ∉ done.flatMap store.bucket := by
    intro address mem other
    obtain ⟨index', inDone, mem'⟩ := List.mem_flatMap.mp other
    obtain ⟨queue, found, rfl⟩ := (linked.mem index address).mp mem
    obtain ⟨queue', found', rfl⟩ := (linked.mem index' address).mp mem'
    rw [found] at found'
    cases found'
    exact fresh inDone
  have first : (store.bucket index).flatMap s.store.entriesAt =
      (store.bucket index).flatMap store.entriesAt := by
    refine List.flatMap_congr fun address mem => ?_
    rw [QueueStore.entriesAt, QueueStore.entriesAt, cleared.untouched address (elsewhere address mem)]
  rw [cleanupIndex, here]
  constructor
  · intro other mem
    by_cases same : other = index
    · rw [same, emptied]
    · have before : other ∈ done := by simpa [same] using mem
      rw [kept other same, cleared.emptied other before]
  · intro other notMem
    rw [List.mem_append, List.mem_singleton, not_or] at notMem
    rw [kept other notMem.2, cleared.kept other notMem.1]
  · rw [queues, cleared.queues, List.flatMap_append, List.flatMap_singleton]
  · rw [entries, cleared.entries, first, List.flatMap_append, List.flatMap_append,
      List.flatMap_singleton]
  · intro address notMem
    rw [List.flatMap_append, List.flatMap_singleton, List.mem_append, not_or] at notMem
    rw [untouched address notMem.2, cleared.untouched address notMem.1]

theorem Cleared.fold {store : QueueStore α} (linked : store.Linked) :
    ∀ (indices : List (Fin QB_SIZE)) {done : List (Fin QB_SIZE)} {s : Cleanup α},
      Cleared store done s → (done ++ indices).Nodup →
      Cleared store (done ++ indices) (indices.foldl cleanupIndex s)
  | [], done, s, cleared, _ => by simpa using cleared
  | index :: rest, done, s, cleared, nodup => by
      have fresh : index ∉ done := by
        intro mem
        exact List.disjoint_of_nodup_append nodup mem (by simp)
      have same : done ++ index :: rest = done ++ [index] ++ rest := by simp
      rw [same] at nodup ⊢
      exact Cleared.fold linked rest (cleared.step linked fresh) nodup

theorem cleared_cleanupQueuebox {store : QueueStore α} (linked : store.Linked) :
    Cleared store (List.finRange QB_SIZE) (cleanupQueuebox store) := by
  have start : Cleared store [] (⟨store, [], []⟩ : Cleanup α) :=
    ⟨by simp, fun _ _ => rfl, rfl, rfl, fun _ _ => rfl⟩
  have nodup : ([] ++ List.finRange QB_SIZE).Nodup := by
    rw [List.nil_append]
    exact List.nodup_finRange QB_SIZE
  have all := Cleared.fold linked (List.finRange QB_SIZE) start nodup
  rw [List.nil_append] at all
  exact all

/-- The objects' entries are what waits under the names in use. -/
theorem entriesAt_range (calls : List (QueueCall α)) :
    (List.range (storeAfter calls).objects.length).flatMap (storeAfter calls).entriesAt =
      (usedNames calls).flatMap fun qname => waiting (getHash qname) calls := by
  have inv := queueboxInv_storeAfter calls
  have all : (List.range (storeAfter calls).objects.length).map (storeAfter calls).entriesAt =
      (storeAfter calls).objects.map Queue.entries := by
    refine List.ext_getElem (by simp) fun i _ lt => ?_
    rw [List.length_map] at lt
    simp [QueueStore.entriesAt, List.getElem?_eq_getElem lt]
  rw [List.flatMap_def, all, inv.objects, List.map_map, List.flatMap_def]
  rfl

/-- After any calls, a cleanup frees each queue object once, and each entry that waits once, and all later
calls are answered as on a queuebox that was just initialized. -/
theorem queuebox_cleaned (calls : List (QueueCall α)) :
    (cleanupQueuebox (storeAfter calls)).queues.Perm (List.range (usedNames calls).length) ∧
      (cleanupQueuebox (storeAfter calls)).entries.Perm
        ((usedNames calls).flatMap fun qname => waiting (getHash qname) calls) ∧
      ∀ later, dequeued (cleanupQueuebox (storeAfter calls)).store later = dequeued .empty later := by
  have inv := queueboxInv_storeAfter calls
  have cleared := cleared_cleanupQueuebox inv.linked
  have listed := inv.linked.getQueuelist_perm
  have objects : (storeAfter calls).objects.length = (usedNames calls).length := by simp [inv.objects]
  refine ⟨?_, ?_, ?_⟩
  · rw [cleared.queues, ← objects]
    exact listed
  · rw [cleared.entries, ← entriesAt_range]
    exact listed.flatMap_right _
  · intro later
    have emptied : ∀ index, (cleanupQueuebox (storeAfter calls)).store.bucket index = [] :=
      fun index => cleared.emptied index (List.mem_finRange index)
    have wellFormed : (cleanupQueuebox (storeAfter calls)).store.WellFormed :=
      ⟨fun index address mem => by simp [emptied index] at mem⟩
    have nothing : (fun hashnum => contents hashnum (cleanupQueuebox (storeAfter calls)).store) =
        FifoMap.empty := by
      funext hashnum
      simp [contents, lookup, emptied, FifoMap.empty]
    rw [dequeued_eq_answers later wellFormed, nothing,
      dequeued_eq_answers later emptyStore_wellFormed, contents_empty]

end Newtmq
