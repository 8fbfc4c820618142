/-
Module: Newtmq.Proofs.QueueMap
Purpose: Sequences of calls of `enqueue` and `dequeue` against the map from names to FIFO lists. The
  queuebox is a FIFO map keyed by the hash numbers, so it is one keyed by the names exactly as far as
  the names in use have different hash numbers.
Trusted boundary: none
Main exports: QueueCall, dequeued, dequeued_eq_answers, RefinesFifoMap,
  refinesFifoMap_iff_hash_injective
-/
import Newtmq.Library.FifoMap
import Newtmq.Proofs.QueueStore

namespace Newtmq

open FifoMap (Request answers)

universe u

variable {α : Type u}

/-! ### One call -/

theorem enqueue_some {store : QueueStore α} (wf : store.WellFormed) (data : α)
    (qname : List UInt8) :
    ∃ store', enqueue (some data) qname store = (.success, store') ∧ store'.WellFormed ∧
      (fun hashnum => contents hashnum store') =
        FifoMap.put (getHash qname) data (fun hashnum => contents hashnum store) := by
  obtain ⟨address, store₁, got, wf₁, found, same⟩ := getQueue_found wf qname
  refine ⟨appendEntry address data store₁, by simp [enqueue, got], ?_, ?_⟩
  · rw [appendEntry_eq]
    exact wf₁.withEntries _ _ _
  · funext hashnum
    rw [appendEntry_eq, contents_withEntries, same, FifoMap.put, Function.update_apply]
    by_cases here : hashnum = getHash qname
    · subst here
      simp [found]
    · have elsewhere : lookup hashnum store₁ ≠ some address :=
        fun h => here (lookup_unique h found)
      simp [elsewhere, here]

theorem dequeue_eq {store : QueueStore α} (wf : store.WellFormed) (qname : List UInt8) :
    ∃ store', dequeue qname store = ((contents (getHash qname) store).head?, store') ∧
      store'.WellFormed ∧
      (fun hashnum => contents hashnum store') =
        FifoMap.take (getHash qname) (fun hashnum => contents hashnum store) := by
  obtain ⟨address, store₁, got, wf₁, found, same⟩ := getQueue_found wf qname
  have popped : (popEntry address store₁).1 = (contents (getHash qname) store).head? := by
    rw [popEntry_fst found, same]
  refine ⟨(popEntry address store₁).2, by simp [dequeue, got, ← popped], ?_, ?_⟩
  · rw [popEntry_eq]
    exact wf₁.withEntries _ _ _
  · funext hashnum
    rw [popEntry_eq, contents_withEntries, same, FifoMap.take, Function.update_apply]
    by_cases here : hashnum = getHash qname
    · subst here
      simp [found]
    · have elsewhere : lookup hashnum store₁ ≠ some address :=
        fun h => here (lookup_unique h found)
      simp [elsewhere, here]

/-- Both functions keep the queues well formed. -/
theorem QueueStore.WellFormed.enqueue {store : QueueStore α} (wf : store.WellFormed) (data : α)
    (qname : List UInt8) : (Newtmq.enqueue (some data) qname store).2.WellFormed := by
  obtain ⟨store', step, wf', -⟩ := enqueue_some wf data qname
  rw [step]
  exact wf'

theorem QueueStore.WellFormed.dequeue {store : QueueStore α} (wf : store.WellFormed)
    (qname : List UInt8) : (Newtmq.dequeue qname store).2.WellFormed := by
  obtain ⟨store', step, wf', -⟩ := dequeue_eq wf qname
  rw [step]
  exact wf'

/-- What `dequeue` takes is the oldest data of the queue. -/
theorem dequeue_fst {store : QueueStore α} (wf : store.WellFormed) (qname : List UInt8) :
    (dequeue qname store).1 = (contents (getHash qname) store).head? := by
  obtain ⟨store', step, -, -⟩ := dequeue_eq wf qname
  rw [step]

theorem contents_enqueue {store : QueueStore α} (wf : store.WellFormed) (data : α)
    (qname : List UInt8) (hashnum : UInt64) :
    contents hashnum (enqueue (some data) qname store).2 =
      if hashnum = getHash qname then contents (getHash qname) store ++ [data]
      else contents hashnum store := by
  obtain ⟨store', step, -, put⟩ := enqueue_some wf data qname
  rw [step, congrFun put hashnum, FifoMap.put, Function.update_apply]

theorem contents_dequeue {store : QueueStore α} (wf : store.WellFormed) (qname : List UInt8)
    (hashnum : UInt64) :
    contents hashnum (dequeue qname store).2 =
      if hashnum = getHash qname then (contents (getHash qname) store).tail
      else contents hashnum store := by
  obtain ⟨store', step, -, take⟩ := dequeue_eq wf qname
  rw [step, congrFun take hashnum, FifoMap.take, Function.update_apply]

/-! ### Sequences of calls -/

/-- A call of one of the two functions. -/
inductive QueueCall (α : Type u) where
  | enqueue (data : Option α) (qname : List UInt8)
  | dequeue (qname : List UInt8)

def QueueCall.qname : QueueCall α → List UInt8
  | .enqueue _ qname => qname
  | .dequeue qname => qname

/-- The results of the `dequeue` calls of a sequence, in order. -/
def dequeued : QueueStore α → List (QueueCall α) → List (Option α)
  | _, [] => []
  | store, .enqueue data qname :: calls => dequeued (enqueue data qname store).2 calls
  | store, .dequeue qname :: calls =>
      (dequeue qname store).1 :: dequeued (dequeue qname store).2 calls

/-- What a call asks of a FIFO map: an `enqueue` of `NULL` asks nothing. -/
def QueueCall.request : QueueCall α → Option (Request (List UInt8) α)
  | .enqueue none _ => none
  | .enqueue (some data) qname => some (.put qname data)
  | .dequeue qname => some (.take qname)

/-- The queuebox answers as a FIFO map keyed by the hash numbers. -/
theorem dequeued_eq_answers :
    ∀ (calls : List (QueueCall α)) {store : QueueStore α}, store.WellFormed →
      dequeued store calls =
        answers getHash (fun hashnum => contents hashnum store)
          (calls.filterMap QueueCall.request)
  | [], _, _ => rfl
  | .enqueue none qname :: calls, store, wf => by
      rw [dequeued, List.filterMap_cons]
      exact dequeued_eq_answers calls wf
  | .enqueue (some data) qname :: calls, store, wf => by
      obtain ⟨store', step, wf', after⟩ := enqueue_some wf data qname
      rw [dequeued, step, List.filterMap_cons]
      simp only [QueueCall.request, answers]
      rw [← after]
      exact dequeued_eq_answers calls wf'
  | .dequeue qname :: calls, store, wf => by
      obtain ⟨store', step, wf', after⟩ := dequeue_eq wf qname
      rw [dequeued, step, List.filterMap_cons]
      simp only [QueueCall.request, answers]
      rw [← after, dequeued_eq_answers calls wf']

/-- On the names of the set, the two functions are a map from names to FIFO lists: whatever the
sequence of calls, each `dequeue` returns the oldest data enqueued under exactly its name and not yet
dequeued. -/
def RefinesFifoMap (α : Type u) (names : Set (List UInt8)) : Prop :=
  ∀ calls : List (QueueCall α), (∀ call ∈ calls, call.qname ∈ names) →
    dequeued QueueStore.empty calls =
      answers cstr FifoMap.empty (calls.filterMap QueueCall.request)

theorem emptyStore_wellFormed : (QueueStore.empty : QueueStore α).WellFormed where
  below index address mem := by simp [QueueStore.empty, QueueStore.bucket] at mem

theorem contents_empty : (fun hashnum => contents hashnum (QueueStore.empty : QueueStore α)) =
    FifoMap.empty := rfl

/-- The hash number depends on the characters before the NUL only. -/
theorem getHash_congr {a b : List UInt8} (same : cstr a = cstr b) : getHash a = getHash b := by
  rw [getHash, getHash, same]

/-- Some requests are the ones of some calls with the same names. -/
theorem exists_calls (names : Set (List UInt8)) (requests : List (Request (List UInt8) α))
    (within : ∀ request ∈ requests, request.name ∈ names) :
    ∃ calls : List (QueueCall α), calls.filterMap QueueCall.request = requests ∧
      ∀ call ∈ calls, call.qname ∈ names := by
  induction requests with
  | nil => exact ⟨[], rfl, by simp⟩
  | cons request requests ih =>
      obtain ⟨calls, same, inside⟩ := ih fun r mem => within r (List.mem_cons_of_mem request mem)
      have mem := within request (by simp)
      cases request with
      | put name item =>
          exact ⟨.enqueue (some item) name :: calls, by simp [QueueCall.request, same],
            List.forall_mem_cons.mpr ⟨mem, inside⟩⟩
      | take name =>
          exact ⟨.dequeue name :: calls, by simp [QueueCall.request, same],
            List.forall_mem_cons.mpr ⟨mem, inside⟩⟩

/-- The queues are a map from the names in use to FIFO lists exactly when different names in use have
different hash numbers. -/
theorem refinesFifoMap_iff_hash_injective [Inhabited α] (names : Set (List UInt8)) :
    RefinesFifoMap α names ↔
      ∀ a ∈ names, ∀ b ∈ names, getHash a = getHash b → cstr a = cstr b := by
  have kernel := FifoMap.answers_eq_iff (α := α) getHash cstr names
  constructor
  · intro refines a memA b memB
    refine (kernel.mp ?_ a memA b memB).mp
    intro requests within
    obtain ⟨calls, same, inside⟩ := exists_calls names requests within
    rw [← same, ← refines calls inside, dequeued_eq_answers calls emptyStore_wellFormed,
      contents_empty]
  · intro injective calls within
    rw [dequeued_eq_answers calls emptyStore_wellFormed, contents_empty]
    refine kernel.mpr ?_ _ ?_
    · exact fun a memA b memB => ⟨injective a memA b memB, getHash_congr⟩
    · intro request mem
      obtain ⟨call, memCall, asks⟩ := List.mem_filterMap.mp mem
      have inside := within call memCall
      cases call with
      | enqueue data qname =>
          cases data with
          | none => cases asks
          | some data =>
              cases asks
              exact inside
      | dequeue qname =>
          cases asks
          exact inside

/-- The names `ab` and `bA` have one hash number: what is enqueued under one is dequeued under the
other. -/
theorem queue_names_collide : ¬ RefinesFifoMap Nat Set.univ := by
  intro refines
  have mixed := refines [.enqueue (some 1) (cstring "ab"), .dequeue (cstring "bA")]
    (fun _ _ => Set.mem_univ _)
  revert mixed
  decide

end Newtmq
