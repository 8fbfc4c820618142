/-
Module: Newtmq.Proofs.QueueStore
Purpose: What each locked step of `queue.c` does to the two things that later calls see: which object
  `lookup` finds for a hash number, and the entries of that object.
Trusted boundary: none
Main exports: QueueStore.WellFormed, lookup_eq_find, lookup_insertQueue, contents_insertQueue,
  withEntries, contents_withEntries, getQueue_found
-/
import Newtmq.Core.Queue

namespace Newtmq

universe u

variable {α : Type u}

/-- The lists of the queuebox link existing objects. -/
structure QueueStore.WellFormed (store : QueueStore α) : Prop where
  below : ∀ index, ∀ address ∈ store.bucket index, address < store.objects.length

/-- The entries of the object that is found for a hash number. -/
def contents (hashnum : UInt64) (store : QueueStore α) : List α :=
  match lookup hashnum store with
  | some address => ((store.objects[address]?).map Queue.entries).getD []
  | none => []

/-! ### The loop of the lookup -/

theorem foldl_lastMatch (p : Nat → Bool) (addresses : List Nat) :
    addresses.foldl (fun queue address => if p address then some address else queue) none =
      addresses.reverse.find? p := by
  rw [List.foldl_eq_foldr_reverse]
  induction addresses.reverse with
  | nil => rfl
  | cons address rest ih => by_cases h : p address <;> simp [h, ih]

/-- The last object of the list that has the hash number. -/
theorem lookup_eq_find (hashnum : UInt64) (store : QueueStore α) :
    lookup hashnum store =
      (store.bucket (bucketIndex hashnum)).reverse.find? (store.hasHash hashnum) :=
  foldl_lastMatch _ _

theorem lookup_some {hashnum : UInt64} {store : QueueStore α} {address : Nat}
    (found : lookup hashnum store = some address) :
    address ∈ store.bucket (bucketIndex hashnum) ∧ store.hasHash hashnum address = true := by
  rw [lookup_eq_find] at found
  exact ⟨by simpa using List.mem_of_find?_eq_some found, List.find?_some found⟩

theorem hasHash_iff {store : QueueStore α} {hashnum : UInt64} {address : Nat} :
    store.hasHash hashnum address = true ↔
      ∃ queue, store.objects[address]? = some queue ∧ queue.hashnum = hashnum := by
  unfold QueueStore.hasHash
  cases store.objects[address]? <;> simp

/-- An object is found for its own hash number only. -/
theorem lookup_unique {first second : UInt64} {store : QueueStore α} {address : Nat}
    (one : lookup first store = some address) (two : lookup second store = some address) :
    first = second := by
  obtain ⟨queue, at₁, rfl⟩ := hasHash_iff.mp (lookup_some one).2
  obtain ⟨queue', at₂, rfl⟩ := hasHash_iff.mp (lookup_some two).2
  rw [at₁] at at₂
  cases at₂
  rfl

/-! ### Creating the list -/

/-- The list is there already, or the index held `NULL`. -/
theorem initBucket_cases (qname : List UInt8) (store : QueueStore α) :
    initBucket qname store = store ∨
      (store.queuebox (bucketIndex (getHash qname)) = none ∧
        initBucket qname store =
          { store with
            queuebox := Function.update store.queuebox (bucketIndex (getHash qname)) (some []) }) := by
  cases h : store.queuebox (bucketIndex (getHash qname)) with
  | some addresses => exact Or.inl (by simp [initBucket, h])
  | none => exact Or.inr ⟨rfl, by simp [initBucket, h]⟩

@[simp] theorem bucket_initBucket (qname : List UInt8) (store : QueueStore α) (index : Fin QB_SIZE) :
    (initBucket qname store).bucket index = store.bucket index := by
  rcases initBucket_cases qname store with h | ⟨absent, h⟩
  · rw [h]
  · rw [h]
    by_cases same : index = bucketIndex (getHash qname)
    · subst same
      simp [QueueStore.bucket, absent]
    · simp [QueueStore.bucket, same]

@[simp] theorem objects_initBucket (qname : List UInt8) (store : QueueStore α) :
    (initBucket qname store).objects = store.objects := by
  rcases initBucket_cases qname store with h | ⟨_, h⟩ <;> rw [h]

@[simp] theorem hasHash_initBucket (qname : List UInt8) (store : QueueStore α) :
    (initBucket qname store).hasHash = store.hasHash := by
  funext hashnum address
  simp [QueueStore.hasHash]

@[simp] theorem lookup_initBucket (hashnum : UInt64) (qname : List UInt8) (store : QueueStore α) :
    lookup hashnum (initBucket qname store) = lookup hashnum store := by
  simp [lookup]

@[simp] theorem contents_initBucket (hashnum : UInt64) (qname : List UInt8) (store : QueueStore α) :
    contents hashnum (initBucket qname store) = contents hashnum store := by
  simp [contents]

theorem QueueStore.WellFormed.initBucket {store : QueueStore α} (wf : store.WellFormed)
    (qname : List UInt8) : (initBucket qname store).WellFormed where
  below index address mem := by simpa using wf.below index address (by simpa using mem)

/-! ### Inserting an object -/

theorem bucket_insertQueue (qname : List UInt8) (store : QueueStore α) (index : Fin QB_SIZE) :
    (insertQueue qname store).2.bucket index =
      if index = bucketIndex (getHash qname) then store.objects.length :: store.bucket index
      else store.bucket index := by
  by_cases same : index = bucketIndex (getHash qname)
  · subst same
    simp [insertQueue, QueueStore.bucket]
  · simp [insertQueue, QueueStore.bucket, same]

/-- An address that was taken before keeps its object. -/
theorem objects_insertQueue_old {store : QueueStore α} {address : Nat}
    (old : address < store.objects.length) (qname : List UInt8) :
    (insertQueue qname store).2.objects[address]? = store.objects[address]? :=
  List.getElem?_append_left old

theorem objects_insertQueue_new (qname : List UInt8) (store : QueueStore α) :
    (insertQueue qname store).2.objects[store.objects.length]? =
      some ⟨getHash qname, (cstr qname).take QNAME_LENGTH, [], 0⟩ := by
  simp [insertQueue]

theorem hasHash_insertQueue_old {store : QueueStore α} {address : Nat}
    (old : address < store.objects.length) (qname : List UInt8) (hashnum : UInt64) :
    (insertQueue qname store).2.hasHash hashnum address = store.hasHash hashnum address := by
  simp only [QueueStore.hasHash, objects_insertQueue_old old]

theorem hasHash_insertQueue_new (qname : List UInt8) (store : QueueStore α) (hashnum : UInt64) :
    (insertQueue qname store).2.hasHash hashnum store.objects.length =
      decide (getHash qname = hashnum) := by
  simp only [QueueStore.hasHash, objects_insertQueue_new]

theorem QueueStore.WellFormed.insertQueue {store : QueueStore α} (wf : store.WellFormed)
    (qname : List UInt8) : (insertQueue qname store).2.WellFormed where
  below index address mem := by
    have length : (Newtmq.insertQueue qname store).2.objects.length = store.objects.length + 1 := by
      simp [Newtmq.insertQueue]
    rw [length]
    rw [bucket_insertQueue] at mem
    split at mem
    · rcases List.mem_cons.mp mem with rfl | mem
      · exact Nat.lt_succ_self _
      · exact Nat.lt_succ_of_lt (wf.below index address mem)
    · exact Nat.lt_succ_of_lt (wf.below index address mem)

/-- The new object is linked at the head, so it is found only when no older one matches. -/
theorem lookup_insertQueue {store : QueueStore α} (wf : store.WellFormed) (qname : List UInt8)
    (hashnum : UInt64) :
    lookup hashnum (insertQueue qname store).2 =
      (lookup hashnum store).or
        (if getHash qname = hashnum then some store.objects.length else none) := by
  have older : ∀ addresses : List Nat, (∀ a ∈ addresses, a < store.objects.length) →
      addresses.find? ((insertQueue qname store).2.hasHash hashnum) =
        addresses.find? (store.hasHash hashnum) := by
    intro addresses below
    induction addresses with
    | nil => rfl
    | cons a rest ih =>
        rw [List.find?_cons, List.find?_cons, hasHash_insertQueue_old (below a (by simp)),
          ih fun b mem => below b (List.mem_cons_of_mem a mem)]
  have below : ∀ a ∈ (store.bucket (bucketIndex hashnum)).reverse, a < store.objects.length :=
    fun a mem => wf.below _ a (List.mem_reverse.mp mem)
  rw [lookup_eq_find, lookup_eq_find, bucket_insertQueue]
  by_cases same : bucketIndex hashnum = bucketIndex (getHash qname)
  · rw [if_pos same, List.reverse_cons, List.find?_append, older _ below]
    congr 1
    by_cases match_ : getHash qname = hashnum <;> simp [hasHash_insertQueue_new, match_]
  · have different : getHash qname ≠ hashnum := fun h => same (by rw [h])
    rw [if_neg same, older _ below, if_neg different, Option.or_none]

/-- The new object has no entries. -/
theorem contents_insertQueue {store : QueueStore α} (wf : store.WellFormed) (qname : List UInt8)
    (hashnum : UInt64) :
    contents hashnum (insertQueue qname store).2 = contents hashnum store := by
  unfold contents
  rw [lookup_insertQueue wf]
  cases found : lookup hashnum store with
  | some address =>
      have old := wf.below _ address (lookup_some found).1
      simp [objects_insertQueue_old old]
  | none =>
      by_cases same : getHash qname = hashnum
      · simp [same, objects_insertQueue_new]
      · simp [same]

/-! ### Changing the entries of an object -/

/-- The object at `address` gets the entries `f` makes of the old ones, and a new count. -/
def withEntries (address : Nat) (f : List α → List α) (count : Int → Int) (store : QueueStore α) :
    QueueStore α :=
  { store with
    objects := store.objects.modify address fun q =>
      { q with entries := f q.entries, count := count q.count } }

theorem appendEntry_eq (address : Nat) (data : α) (store : QueueStore α) :
    appendEntry address data store =
      withEntries address (· ++ [data]) (fun count => wrap32 (count + 1)) store := rfl

theorem popEntry_eq (address : Nat) (store : QueueStore α) :
    (popEntry address store).2 = withEntries address List.tail id store := rfl

@[simp] theorem bucket_withEntries (address : Nat) (f : List α → List α) (count : Int → Int)
    (store : QueueStore α) (index : Fin QB_SIZE) :
    (withEntries address f count store).bucket index = store.bucket index := rfl

@[simp] theorem hasHash_withEntries (address : Nat) (f : List α → List α) (count : Int → Int)
    (store : QueueStore α) :
    (withEntries address f count store).hasHash = store.hasHash := by
  funext hashnum other
  simp only [QueueStore.hasHash, withEntries, List.getElem?_modify]
  by_cases same : address = other
  · subst same
    cases store.objects[address]? <;> simp
  · simp [same]

@[simp] theorem lookup_withEntries (hashnum : UInt64) (address : Nat) (f : List α → List α)
    (count : Int → Int) (store : QueueStore α) :
    lookup hashnum (withEntries address f count store) = lookup hashnum store := by
  simp [lookup]

theorem QueueStore.WellFormed.withEntries {store : QueueStore α} (wf : store.WellFormed)
    (address : Nat) (f : List α → List α) (count : Int → Int) :
    (withEntries address f count store).WellFormed where
  below index other mem := by simpa [Newtmq.withEntries] using wf.below index other mem

/-- The entries seen under a hash number change when its object is the one that was changed. -/
theorem contents_withEntries (hashnum : UInt64) (address : Nat) (f : List α → List α)
    (count : Int → Int) (store : QueueStore α) :
    contents hashnum (withEntries address f count store) =
      if lookup hashnum store = some address then f (contents hashnum store)
      else contents hashnum store := by
  unfold contents
  rw [lookup_withEntries]
  cases found : lookup hashnum store with
  | none => simp
  | some other =>
      obtain ⟨queue, atOther, _⟩ := hasHash_iff.mp (lookup_some found).2
      by_cases same : other = address
      · subst same
        simp [withEntries, atOther]
      · simp [withEntries, same, Ne.symm same, atOther]

/-- What is popped is the oldest entry of the object. -/
theorem popEntry_fst {hashnum : UInt64} {address : Nat} {store : QueueStore α}
    (found : lookup hashnum store = some address) :
    (popEntry address store).1 = (contents hashnum store).head? := by
  obtain ⟨queue, atAddress, _⟩ := hasHash_iff.mp (lookup_some found).2
  simp [popEntry, contents, found, atAddress]

/-! ### The whole of `get_queue` -/

/-- `get_queue` leaves the object it returns where every later lookup finds it, and no entry
changes. -/
theorem getQueue_found {store : QueueStore α} (wf : store.WellFormed) (qname : List UInt8) :
    ∃ address store', getQueue qname store = (address, store') ∧ store'.WellFormed ∧
      lookup (getHash qname) store' = some address ∧
      ∀ hashnum, contents hashnum store' = contents hashnum store := by
  have wf' := wf.initBucket qname
  cases found : lookup (getHash qname) (initBucket qname store) with
  | some address =>
      exact ⟨address, initBucket qname store, by simp [getQueue, found], wf', found,
        fun hashnum => contents_initBucket hashnum qname store⟩
  | none =>
      refine ⟨_, _, by simp only [getQueue, found]; rfl, wf'.insertQueue qname, ?_, ?_⟩
      · rw [lookup_insertQueue wf', found]
        simp
      · intro hashnum
        rw [contents_insertQueue wf', contents_initBucket]

end Newtmq
