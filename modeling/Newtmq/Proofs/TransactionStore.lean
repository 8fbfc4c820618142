/-
Module: Newtmq.Proofs.TransactionStore
Purpose: The list of transactions against the map keyed by exact ids. As far as no id in use is the
  beginning of another one, the comparison of the first bytes finds exactly the transaction with that
  id, whatever follows the stored id in its array.
Trusted boundary: none
Main exports: Stores, Stores.lookup, storeStep_agrees, refinesTransactionMap_iff_prefixFree
-/
import Mathlib.Data.List.InsertIdx
import Newtmq.Library.KeyedList
import Newtmq.Spec.TransactionMap

namespace Newtmq

open KeyedList (map_modify mem_modify_iff mem_eraseIdx_iff)
open Responder (responses Agree responses_eq)

/-- The list of transactions, with `entries` for the ids that the transactions were opened with. The
map gives the frames of those whose ids are in `exact`. -/
structure Stores (ids exact : Set TransactionId) (manager : TransactionManager)
    (transactions : TransactionMap) (entries : List (TransactionId × Transaction)) : Prop where
  list : manager.list = entries.map Prod.snd
  unique : (entries.map Prod.fst).Nodup
  known : ∀ entry ∈ entries, entry.1 ∈ ids ∧ entry.1.bytes <+: entry.2.tid
  same : ∀ id ∈ exact, ∀ frames, transactions id = some frames ↔
    ∃ transaction, (id, transaction) ∈ entries ∧ transaction.frames = frames

/-- No other id of the set is the beginning of this id, or begins with it. -/
def Clear (ids : Set TransactionId) (id : TransactionId) : Prop :=
  ∀ other ∈ ids, id.bytes <+: other.bytes ∨ other.bytes <+: id.bytes → other = id

theorem PrefixFree.clear {ids : Set TransactionId} (free : PrefixFree ids) {id : TransactionId}
    (mem : id ∈ ids) : Clear ids id := by
  intro other memOther related
  rcases related with shorter | longer
  · exact (free id mem other memOther shorter).symm
  · exact free other memOther id mem longer

variable {ids exact : Set TransactionId} {manager : TransactionManager}
  {transactions : TransactionMap} {entries : List (TransactionId × Transaction)}

/-- A transaction that is found was opened with an id that the id asked for begins, or that begins
with it. -/
theorem matches_comparable {id stored : TransactionId} {transaction : Transaction}
    (holds : stored.bytes <+: transaction.tid)
    (matched : transaction.matches id.bytes = true) :
    id.bytes <+: stored.bytes ∨ stored.bytes <+: id.bytes := by
  rw [Transaction.matches, id.cstr_bytes, List.isPrefixOf_iff_prefix] at matched
  exact List.prefix_or_prefix_of_prefix matched holds

theorem matches_self {id : TransactionId} {transaction : Transaction}
    (holds : id.bytes <+: transaction.tid) : transaction.matches id.bytes = true := by
  rw [Transaction.matches, id.cstr_bytes, List.isPrefixOf_iff_prefix]
  exact holds

/-- The place that `get_transaction` finds holds a transaction that it may find. -/
theorem Stores.found (stores : Stores ids exact manager transactions entries) {id : TransactionId}
    {place : Nat} (found : getTransaction id.bytes manager = some place) :
    ∃ stored transaction, entries[place]? = some (stored, transaction) ∧ stored ∈ ids ∧
      (id.bytes <+: stored.bytes ∨ stored.bytes <+: id.bytes) := by
  obtain ⟨transaction, here, matched⟩ := lastMatch_some found
  rw [stores.list, List.getElem?_map, Option.map_eq_some_iff] at here
  obtain ⟨⟨stored, _⟩, here, rfl⟩ := here
  obtain ⟨memStored, holds⟩ := stores.known _ (List.mem_of_getElem? here)
  exact ⟨stored, _, here, memStored, matches_comparable holds matched⟩

/-- `transaction_start` of an id that is not found. -/
theorem transactionStart_missing {id : TransactionId} (missing : getTransaction id.bytes manager = none)
    (malloc : Nat → List UInt8) :
    transactionStart malloc id.bytes manager =
      some (.success,
        { list := manager.list ++
            [{ tid := id.bytes ++ (malloc manager.allocated).drop id.bytes.length, frames := [] }]
          allocated := manager.allocated + 1 }) := by
  have fits : ¬ TID_LEN < id.bytes.length := Nat.not_lt.mpr id.short
  rw [transactionStart, missing]
  simp only [allocTransaction, id.cstr_bytes, fits, if_false, Option.map_some]

/-- When `get_transaction` finds nothing, no transaction was opened with the id. -/
theorem Stores.absent (stores : Stores ids exact manager transactions entries) {id : TransactionId}
    (missing : getTransaction id.bytes manager = none) : id ∉ entries.map Prod.fst := by
  intro memIds
  obtain ⟨⟨stored, transaction⟩, memEntry, rfl⟩ := List.mem_map.mp memIds
  have missed := lastMatch_none.mp missing transaction (by
    rw [stores.list]
    exact List.mem_map.mpr ⟨_, memEntry, rfl⟩)
  rw [matches_self (stores.known _ memEntry).2] at missed
  cases missed

/-- `get_transaction` finds the place of exactly the transaction with the id. -/
theorem Stores.lookup (stores : Stores ids exact manager transactions entries) {id : TransactionId}
    (mem : id ∈ exact) (clear : Clear ids id) :
    (∃ place transaction, getTransaction id.bytes manager = some place ∧
        entries[place]? = some (id, transaction) ∧
        transactions id = some transaction.frames) ∨
      (getTransaction id.bytes manager = none ∧ transactions id = none ∧
        id ∉ entries.map Prod.fst) := by
  cases found : getTransaction id.bytes manager with
  | some place =>
      obtain ⟨stored, transaction, here, memStored, related⟩ := stores.found found
      obtain rfl := clear stored memStored related
      have memEntry := List.mem_of_getElem? here
      exact Or.inl ⟨place, _, rfl, here, (stores.same _ mem _).mpr ⟨_, memEntry, rfl⟩⟩
  | none =>
      have absent := stores.absent found
      refine Or.inr ⟨rfl, ?_, absent⟩
      cases opened : transactions id with
      | none => rfl
      | some frames =>
          obtain ⟨transaction, memEntry, _⟩ := (stores.same id mem frames).mp opened
          exact absurd (List.mem_map.mpr ⟨_, memEntry, rfl⟩) absent

/-- A new transaction is put at the end of the list. -/
theorem Stores.start (stores : Stores ids exact manager transactions entries) {id : TransactionId}
    (mem : id ∈ ids) (absent : id ∉ entries.map Prod.fst) (leftover : List UInt8) (n : Nat) :
    Stores ids exact
      { list := manager.list ++ [{ tid := id.bytes ++ leftover, frames := [] }], allocated := n }
      (Function.update transactions id (some []))
      (entries ++ [(id, { tid := id.bytes ++ leftover, frames := [] })]) where
  list := by simp [stores.list]
  unique := by
    rw [List.map_append, List.nodup_append']
    exact ⟨stores.unique, List.nodup_singleton _, by simpa using absent⟩
  known entry memEntry := by
    rcases List.mem_append.mp memEntry with old | new
    · exact stores.known entry old
    · obtain rfl := List.mem_singleton.mp new
      exact ⟨mem, List.prefix_append _ _⟩
  same other memOther frames := by
    by_cases here : other = id
    · subst here
      have none : ∀ transaction, (other, transaction) ∉ entries := fun transaction memEntry =>
        absent (List.mem_map.mpr ⟨_, memEntry, rfl⟩)
      simp [none]
    · simp [stores.same other memOther, here]

/-- A change of the frames of one transaction. -/
theorem Stores.modify (stores : Stores ids exact manager transactions entries) {id : TransactionId}
    {place : Nat} {transaction : Transaction} (here : entries[place]? = some (id, transaction))
    (object : FrameObject) :
    Stores ids exact { manager with
        list := manager.list.modify place fun t => { t with frames := object :: t.frames } }
      (Function.update transactions id (some (object :: transaction.frames)))
      (entries.modify place fun entry =>
        (entry.1, { entry.2 with frames := object :: entry.2.frames })) where
  list := by
    rw [stores.list]
    apply List.ext_getElem?
    intro i
    simp only [List.getElem?_map, List.getElem?_modify]
    cases entries[i]? <;> by_cases same : place = i <;> simp [same]
  unique := by
    rw [map_modify Prod.fst]
    · exact stores.unique
    · exact fun _ => rfl
  known entry memEntry := by
    have target := stores.known _ (List.mem_of_getElem? here)
    rcases (mem_modify_iff stores.unique here).mp memEntry with rfl | ⟨old, -⟩
    · exact target
    · exact stores.known entry old
  same other memOther frames := by
    simp only [mem_modify_iff stores.unique here]
    by_cases changed : other = id
    · subst changed
      simp
    · simp [stores.same other memOther, changed]

/-- A transaction is taken out of the list. -/
theorem Stores.free (stores : Stores ids exact manager transactions entries) {id : TransactionId}
    {place : Nat} {transaction : Transaction} (here : entries[place]? = some (id, transaction)) :
    Stores ids exact (freeTransaction place manager) (Function.update transactions id none)
      (entries.eraseIdx place) where
  list := by
    rw [freeTransaction, stores.list]
    exact List.eraseIdx_map _ _ _
  unique := by
    rw [← List.eraseIdx_map]
    exact stores.unique.sublist (List.eraseIdx_sublist _ _)
  known entry memEntry := stores.known entry (List.mem_of_mem_eraseIdx memEntry)
  same other memOther frames := by
    simp only [mem_eraseIdx_iff stores.unique here]
    by_cases changed : other = id
    · subst changed
      simp
    · simp [stores.same other memOther, changed]

theorem Stores.framesAt (stores : Stores ids exact manager transactions entries)
    {id : TransactionId} {place : Nat} {transaction : Transaction}
    (here : entries[place]? = some (id, transaction)) :
    manager.framesAt place = transaction.frames := by
  simp [TransactionManager.framesAt, stores.list, here]

/-! ### The calls -/

variable {σ : Type} {malloc : Nat → List UInt8} {callbacks : Nat → FrameObject → σ → Ret × σ}

/-- The relation between the states of the two systems. -/
def StoresWorld (ids : Set TransactionId) (state : TransactionManager × σ)
    (map : TransactionMap × σ) : Prop :=
  (∃ entries, Stores ids ids state.1 map.1 entries) ∧ state.2 = map.2

/-- Each call of the code agrees with the call on the map. -/
theorem storeStep_agrees (free : PrefixFree ids) (state : TransactionManager × σ)
    (map : TransactionMap × σ) (call : TransactionCall) (mem : call.id ∈ ids)
    (related : StoresWorld ids state map) :
    Agree (StoresWorld ids) (storeStep malloc callbacks state call) (mapStep callbacks map call) := by
  obtain ⟨manager, world⟩ := state
  obtain ⟨transactions, _⟩ := map
  obtain ⟨⟨entries, stores⟩, rfl⟩ := related
  have stores : Stores ids ids manager transactions entries := stores
  cases call with
  | start id =>
      have mem : id ∈ ids := mem
      rcases stores.lookup mem (free.clear mem) with ⟨place, transaction, found, here, opened⟩ |
        ⟨found, closed, absent⟩
      · simp only [storeStep, transactionStart, mapStep]
        rw [found, opened]
        exact ⟨rfl, ⟨entries, stores⟩, rfl⟩
      · simp only [storeStep, mapStep]
        rw [transactionStart_missing found, closed]
        exact ⟨rfl, ⟨_, stores.start mem absent _ _⟩, rfl⟩
  | add id object =>
      have mem : id ∈ ids := mem
      rcases stores.lookup mem (free.clear mem) with ⟨place, transaction, found, here, opened⟩ |
        ⟨found, closed, absent⟩
      · simp only [storeStep, transactionAdd, mapStep]
        rw [found, opened]
        exact ⟨rfl, ⟨_, stores.modify here object⟩, rfl⟩
      · simp only [storeStep, transactionAdd, mapStep]
        rw [found, closed]
        exact ⟨rfl, ⟨entries, stores⟩, rfl⟩
  | abort id =>
      have mem : id ∈ ids := mem
      rcases stores.lookup mem (free.clear mem) with ⟨place, transaction, found, here, opened⟩ |
        ⟨found, closed, absent⟩
      · simp only [storeStep, transactionAbort, mapStep]
        rw [found, opened]
        exact ⟨rfl, ⟨_, stores.free here⟩, rfl⟩
      · simp only [storeStep, transactionAbort, mapStep]
        rw [found, closed]
        exact ⟨rfl, ⟨entries, stores⟩, rfl⟩
  | commit id =>
      have mem : id ∈ ids := mem
      rcases stores.lookup mem (free.clear mem) with ⟨place, transaction, found, here, opened⟩ |
        ⟨found, closed, absent⟩
      · simp only [storeStep, transactionCommit, mapStep]
        rw [found, opened]
        simp only [stores.framesAt here]
        cases Loop.run (commitPass callbacks) (transaction.frames.length + 1)
            (transaction.frames, world) with
        | none => trivial
        | some world' => exact ⟨rfl, ⟨_, stores.free here⟩, rfl⟩
      · simp only [storeStep, transactionCommit, mapStep]
        rw [found, closed]
        exact ⟨rfl, ⟨entries, stores⟩, rfl⟩

/-- An id that is the beginning of an open one cannot be opened. -/
theorem start_hidden {a b : TransactionId} (shorter : a.bytes <+: b.bytes)
    (malloc : Nat → List UInt8) (callbacks : Nat → FrameObject → Unit → Ret × Unit) :
    responses (storeStep malloc callbacks) (TransactionManager.init, ()) [.start b, .start a] =
      [some (.success, ()), some (.error, ())] := by
  have fits : ¬ TID_LEN < b.bytes.length := Nat.not_lt.mpr b.short
  have found : a.bytes.isPrefixOf (b.bytes ++ (malloc 0).drop b.bytes.length) = true :=
    List.isPrefixOf_iff_prefix.mpr (shorter.trans (List.prefix_append _ _))
  simp [responses, storeStep, transactionStart, getTransaction, TransactionManager.init, lastMatch,
    allocTransaction, fits, Transaction.matches, found]

/-- On a set of ids, the transaction functions are a map keyed by the exact id exactly when none of
the ids is the beginning of another one. -/
theorem refinesTransactionMap_iff_prefixFree (ids : Set TransactionId) :
    RefinesTransactionMap ids ↔ PrefixFree ids := by
  constructor
  · intro refines a memA b memB shorter
    by_contra apart
    have answers := refines (fun _ => []) Unit (fun _ _ world => (.success, world)) ()
      [.start b, .start a] (by
        intro call mem
        rcases List.mem_pair.mp mem with rfl | rfl
        · exact memB
        · exact memA)
    rw [start_hidden shorter] at answers
    simp [responses, mapStep, apart] at answers
  · intro free malloc σ callbacks world calls inside
    apply responses_eq (StoresWorld ids) _ calls inside
    · refine ⟨⟨[], rfl, List.nodup_nil, fun _ mem => absurd mem List.not_mem_nil, ?_⟩, rfl⟩
      intro id mem frames
      simp
    · intro state map call mem related
      exact storeStep_agrees free state map call mem related

/-- The ids `a` and `ab`. -/
def shortId : TransactionId := ⟨[97], by decide, by decide, by decide⟩

def longId : TransactionId := ⟨[97, 98], by decide, by decide, by decide⟩

/-- With `longId` open, `shortId` cannot be opened, although no transaction has that id. -/
theorem exact_ids_refuted : ¬ RefinesTransactionMap Set.univ ∧
    responses (storeStep (fun _ => []) fun _ _ world => (.success, world))
        (TransactionManager.init, ()) [.start longId, .start shortId] =
      [some (.success, ()), some (.error, ())] := by
  have answers := start_hidden (a := shortId) (b := longId) (by decide) (fun _ => [])
    fun _ _ world => (.success, world)
  refine ⟨fun refines => ?_, answers⟩
  have same := refines (fun _ => []) Unit (fun _ _ world => (.success, world)) ()
    [.start longId, .start shortId] fun _ _ => Set.mem_univ _
  rw [answers] at same
  simp [responses, mapStep, shortId, longId] at same

end Newtmq
