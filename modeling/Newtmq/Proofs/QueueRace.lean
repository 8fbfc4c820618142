/-
Module: Newtmq.Proofs.QueueRace
Purpose: Runs of threads on the queuebox. As long as a thread that has missed a queue inserts one only
  while there is still none, there is one object per hash number, every thread holds the object that
  later lookups find, and no entry is lost.
Trusted boundary: none
Main exports: OnePerHash, Kept, InsertsOnce, QueueInv, queueInv_step, queues_lose_nothing
-/
import Newtmq.Library.Transition
import Newtmq.Core.QueueThreads
import Newtmq.Proofs.QueueStore

namespace Newtmq

open Transition (Reaches Always)

universe u

variable {α : Type u}

/-- There is at most one queue object per hash number in the queuebox. -/
def OnePerHash (store : QueueStore α) : Prop :=
  ∀ hashnum i j, ∀ a ∈ store.bucket i, ∀ b ∈ store.bucket j,
    store.hasHash hashnum a = true → store.hasHash hashnum b = true → i = j ∧ a = b

/-- The data recorded under the names with this hash number. -/
def recorded (hashnum : UInt64) (record : List (List UInt8 × α)) : List α :=
  (record.filter fun entry => getHash entry.1 = hashnum).map Prod.snd

/-- The data whose `enqueue` has returned, in order, are the data that `dequeue` calls have returned,
each of them once, and after these the entries of the object that `get_queue` finds. -/
def Kept (s : QueueThreads α) : Prop :=
  ∀ qname, recorded (getHash qname) s.enqueued =
    recorded (getHash qname) s.returned ++ contents (getHash qname) s.store

/-- An insertion happens only while no object with the hash number is found. -/
def InsertsOnce (s : QueueThreads α) : ThreadAction α → Prop
  | .insert thread =>
      ∀ op, s.threads thread = .missed op → lookup (getHash op.qname) s.store = none
  | _ => True

/-! ### The queuebox -/

/-- Objects are linked in the list of their hash number, one for each. -/
structure StoreInv (store : QueueStore α) : Prop where
  wellFormed : store.WellFormed
  onePerHash : OnePerHash store
  home : ∀ hashnum i, ∀ a ∈ store.bucket i, store.hasHash hashnum a = true → i = bucketIndex hashnum

/-- Only the lists and the hash numbers matter. -/
theorem StoreInv.congr {store store' : QueueStore α} (inv : StoreInv store)
    (wellFormed : store'.WellFormed) (bucket : store'.bucket = store.bucket)
    (hasHash : store'.hasHash = store.hasHash) : StoreInv store' := by
  refine ⟨wellFormed, ?_, ?_⟩
  · unfold OnePerHash
    rw [bucket, hasHash]
    exact inv.onePerHash
  · rw [bucket, hasHash]
    exact inv.home

theorem StoreInv.initBucket {store : QueueStore α} (inv : StoreInv store) (qname : List UInt8) :
    StoreInv (initBucket qname store) :=
  inv.congr (inv.wellFormed.initBucket qname) (funext fun _ => bucket_initBucket _ _ _)
    (hasHash_initBucket _ _)

theorem StoreInv.withEntries {store : QueueStore α} (inv : StoreInv store) (address : Nat)
    (f : List α → List α) (count : Int → Int) : StoreInv (withEntries address f count store) :=
  inv.congr (inv.wellFormed.withEntries address f count) rfl (hasHash_withEntries _ _ _ _)

/-- Nothing is found exactly when no object of the list has the hash number. -/
theorem lookup_eq_none {hashnum : UInt64} {store : QueueStore α} :
    lookup hashnum store = none ↔
      ∀ a ∈ store.bucket (bucketIndex hashnum), store.hasHash hashnum a = false := by
  rw [lookup_eq_find, List.find?_eq_none]
  simp

/-- What is linked after an insertion: the new object, or an older one. -/
theorem mem_bucket_insertQueue {qname : List UInt8} {store : QueueStore α} {i : Fin QB_SIZE}
    {a : Nat} (mem : a ∈ (insertQueue qname store).2.bucket i) :
    (a = store.objects.length ∧ i = bucketIndex (getHash qname)) ∨ a ∈ store.bucket i := by
  rw [bucket_insertQueue] at mem
  split at mem
  · next here =>
      rcases List.mem_cons.mp mem with new | old
      · exact Or.inl ⟨new, here⟩
      · exact Or.inr old
  · exact Or.inr mem

theorem StoreInv.insertQueue {store : QueueStore α} (inv : StoreInv store) {qname : List UInt8}
    (missed : lookup (getHash qname) store = none) : StoreInv (insertQueue qname store).2 := by
  have old : ∀ {i a hashnum}, a ∈ store.bucket i →
      (Newtmq.insertQueue qname store).2.hasHash hashnum a = store.hasHash hashnum a :=
    fun mem => hasHash_insertQueue_old (inv.wellFormed.below _ _ mem) qname _
  -- The new object shares its hash number with no older one.
  have apart : ∀ {i a}, a ∈ store.bucket i → store.hasHash (getHash qname) a = true → False := by
    intro i a mem hash
    have here := inv.home _ i a mem hash
    subst here
    rw [lookup_eq_none.mp missed a mem] at hash
    cases hash
  refine ⟨inv.wellFormed.insertQueue qname, ?_, ?_⟩
  · intro hashnum i j a memA b memB hashA hashB
    rcases mem_bucket_insertQueue memA with ⟨rfl, rfl⟩ | memA <;>
      rcases mem_bucket_insertQueue memB with ⟨rfl, rfl⟩ | memB
    · exact ⟨rfl, rfl⟩
    · rw [hasHash_insertQueue_new, decide_eq_true_eq] at hashA
      rw [old memB] at hashB
      exact (apart memB (hashA ▸ hashB)).elim
    · rw [hasHash_insertQueue_new, decide_eq_true_eq] at hashB
      rw [old memA] at hashA
      exact (apart memA (hashB ▸ hashA)).elim
    · rw [old memA] at hashA
      rw [old memB] at hashB
      exact inv.onePerHash hashnum i j a memA b memB hashA hashB
  · intro hashnum i a mem hash
    rcases mem_bucket_insertQueue mem with ⟨rfl, rfl⟩ | mem
    · rw [hasHash_insertQueue_new, decide_eq_true_eq] at hash
      rw [hash]
    · rw [old mem] at hash
      exact inv.home hashnum i a mem hash

/-! ### The threads -/

/-- The invariant of the runs: the queuebox is in order, a thread that has got an object holds the one
that lookups find, and no entry is lost. -/
structure QueueInv (s : QueueThreads α) : Prop where
  store : StoreInv s.store
  holds : ∀ thread op address, s.threads thread = .found op address →
    lookup (getHash op.qname) s.store = some address
  kept : Kept s

/-- A thread moves on without touching the queuebox. -/
theorem QueueInv.setThread {s : QueueThreads α} (inv : QueueInv s) (thread : Nat)
    {state : ThreadState α} (held : ∀ op address, state = .found op address →
      lookup (getHash op.qname) s.store = some address) : QueueInv (s.setThread thread state) := by
  refine ⟨inv.store, ?_, inv.kept⟩
  intro other op address at_
  simp only [QueueThreads.setThread, Function.update_apply] at at_
  split at at_
  · exact held op address at_
  · exact inv.holds other op address at_

/-- The queuebox changes, but what the calls see of it does not. -/
theorem QueueInv.setStore {s : QueueThreads α} (inv : QueueInv s) {store : QueueStore α}
    (storeInv : StoreInv store)
    (found : ∀ hashnum address, lookup hashnum s.store = some address →
      lookup hashnum store = some address)
    (same : ∀ hashnum, contents hashnum store = contents hashnum s.store) :
    QueueInv { s with store := store } := by
  refine ⟨storeInv, ?_, ?_⟩
  · exact fun thread op address at_ => found _ _ (inv.holds thread op address at_)
  · intro qname
    have := inv.kept qname
    rw [← same] at this
    exact this

theorem recorded_append (hashnum : UInt64) (first second : List (List UInt8 × α)) :
    recorded hashnum (first ++ second) = recorded hashnum first ++ recorded hashnum second := by
  simp [recorded]

theorem recorded_single (hashnum : UInt64) (qname : List UInt8) (data : α) :
    recorded hashnum [(qname, data)] = if getHash qname = hashnum then [data] else [] := by
  by_cases h : getHash qname = hashnum <;> simp [recorded, h]

/-- The last critical section of a call, on the object that lookups find. -/
theorem QueueInv.accessEntries {s : QueueThreads α} (inv : QueueInv s) {op : QueueOp α}
    {address : Nat} (found : lookup (getHash op.qname) s.store = some address) :
    QueueInv (s.accessEntries op address) := by
  have mine : ∀ {hashnum}, lookup hashnum s.store = some address ↔ getHash op.qname = hashnum := by
    intro hashnum
    constructor
    · exact fun h => lookup_unique found h
    · rintro rfl
      exact found
  cases op with
  | enqueue data qname =>
      refine ⟨?_, ?_, ?_⟩
      · simp only [QueueThreads.accessEntries, appendEntry_eq]
        exact inv.store.withEntries address _ _
      · intro thread op other at_
        simp only [QueueThreads.accessEntries, appendEntry_eq, lookup_withEntries]
        exact inv.holds thread op other at_
      · intro other
        have kept := inv.kept other
        simp only [QueueThreads.accessEntries, appendEntry_eq, contents_withEntries, mine,
          recorded_append, recorded_single, QueueOp.qname]
        rw [kept]
        split <;> simp
  | dequeue qname =>
      refine ⟨?_, ?_, ?_⟩
      · simp only [QueueThreads.accessEntries, popEntry_eq]
        exact inv.store.withEntries address _ _
      · intro thread op other at_
        simp only [QueueThreads.accessEntries, popEntry_eq, lookup_withEntries]
        exact inv.holds thread op other at_
      · intro other
        have kept := inv.kept other
        simp only [QueueThreads.accessEntries, popEntry_eq, popEntry_fst found,
          contents_withEntries, mine, recorded_append, QueueOp.qname]
        rw [kept]
        by_cases here : getHash qname = getHash other
        · -- The data returned is the first entry of the object.
          rw [here, if_pos rfl]
          cases contents (getHash other) s.store with
          | nil => simp [recorded]
          | cons first rest => simp [recorded, here]
        · rw [if_neg here]
          cases contents (getHash qname) s.store with
          | nil => simp [recorded]
          | cons first rest => simp [recorded, here]

/-- Every step keeps the invariant, when it inserts only while nothing is found. -/
theorem queueInv_step (s : QueueThreads α) (action : ThreadAction α) (s' : QueueThreads α)
    (inv : QueueInv s) (once : InsertsOnce s action) (taken : queueStep s action = some s') :
    QueueInv s' := by
  cases action with
  | call thread op =>
      simp only [queueStep] at taken
      split at taken
      · cases taken
        exact inv.setThread thread (by simp)
      · cases taken
  | create thread =>
      simp only [queueStep] at taken
      split at taken
      · next op _ =>
          cases taken
          refine QueueInv.setThread (inv.setStore (inv.store.initBucket op.qname) ?_ ?_) thread
            (by simp)
          · exact fun hashnum address found => by rwa [lookup_initBucket]
          · exact fun hashnum => contents_initBucket hashnum op.qname s.store
      · cases taken
  | lookup thread =>
      simp only [queueStep] at taken
      split at taken
      · next op _ =>
          split at taken
          · next address found =>
              cases taken
              refine inv.setThread thread ?_
              rintro _ _ ⟨⟩
              exact found
          · cases taken
            exact inv.setThread thread (by simp)
      · cases taken
  | insert thread =>
      simp only [queueStep] at taken
      split at taken
      · next op at_ =>
          cases taken
          have missed := once op at_
          refine QueueInv.setThread (inv.setStore (inv.store.insertQueue missed) ?_ ?_) thread ?_
          · intro hashnum address found
            rw [lookup_insertQueue inv.store.wellFormed, found]
            rfl
          · exact contents_insertQueue inv.store.wellFormed op.qname
          · rintro _ _ ⟨⟩
            change lookup _ (insertQueue op.qname s.store).2 = _
            rw [lookup_insertQueue inv.store.wellFormed, missed]
            simp [insertQueue]
      · cases taken
  | access thread =>
      simp only [queueStep] at taken
      split at taken
      · next op address at_ =>
          cases taken
          exact QueueInv.setThread (inv.accessEntries (inv.holds thread op address at_)) thread
            (by simp)
      · cases taken

theorem queueInv_start : QueueInv (QueueThreads.start : QueueThreads α) := by
  refine ⟨⟨⟨?_⟩, ?_, ?_⟩, ?_, ?_⟩
  · intro index address mem
    simp [QueueThreads.start, QueueStore.empty, QueueStore.bucket] at mem
  · intro hashnum i j a mem
    simp [QueueThreads.start, QueueStore.empty, QueueStore.bucket] at mem
  · intro hashnum i a mem
    simp [QueueThreads.start, QueueStore.empty, QueueStore.bucket] at mem
  · intro thread op address at_
    cases at_
  · exact fun qname => rfl

/-- In every run in which no thread inserts a queue object while there is one for the hash number,
there is at most one object per hash number at any time, and every entry whose `enqueue` has returned
has been returned by one `dequeue` or is in the object that `get_queue` finds. -/
theorem queues_lose_nothing (s : QueueThreads α)
    (reaches : Reaches queueStep InsertsOnce QueueThreads.start s) :
    OnePerHash s.store ∧ Kept s := by
  have inv := reaches.invariant queueInv_step queueInv_start
  exact ⟨inv.store.onePerHash, inv.kept⟩

/-- One thread enqueues on a new queue. -/
theorem queues_lose_nothing_alone :
    ∃ s : QueueThreads Nat, s.enqueued = [(cstring "q", 7)] ∧ OnePerHash s.store ∧ Kept s := by
  refine ⟨_, ?enqueued, queues_lose_nothing _
    (.head ⟨.call 0 (.enqueue 7 (cstring "q")), trivial, rfl⟩
      (.head ⟨.create 0, trivial, rfl⟩
        (.head ⟨.lookup 0, trivial, rfl⟩
          (.head ⟨.insert 0, ?once, rfl⟩
            (.head ⟨.access 0, trivial, rfl⟩ .refl)))))⟩
  case once =>
    rintro _ ⟨⟩
    decide
  case enqueued => rfl

/-- The steps of two threads that both miss the queue `q` and both insert one. -/
def raceActions : List (ThreadAction Nat) :=
  [.call 0 (.dequeue (cstring "q")), .call 1 (.enqueue 7 (cstring "q")),
    .create 0, .create 1, .lookup 0, .lookup 1, .insert 0, .insert 1, .access 1, .access 0]

/-- The entry goes to the object that was inserted second. It is linked before the other one, so no
later lookup finds it. -/
theorem queue_race_loses_entry :
    ¬ ∀ s : QueueThreads Nat, Reaches queueStep Always QueueThreads.start s →
      OnePerHash s.store ∧ Kept s := by
  intro always
  obtain ⟨s, taken, enqueued, returned, gone⟩ :
      ∃ s, Transition.run queueStep QueueThreads.start raceActions = some s ∧
        s.enqueued = [(cstring "q", 7)] ∧ s.returned = [] ∧
        contents (getHash (cstring "q")) s.store = [] :=
    ⟨_, rfl, rfl, rfl, by decide⟩
  have kept := (always s (Transition.reaches_of_run taken)).2 (cstring "q")
  rw [enqueued, returned, gone] at kept
  revert kept
  decide

end Newtmq
