/-
Module: Newtmq.Spec.TransactionCalls
Purpose: What single calls of `transaction.c` are meant to do, in every state that calls can lead to: a
  commit replays the frames that were added, in order, and reports a failure; the destructor clears the
  store.
Trusted boundary: human-reviewed spec
Main exports: logging, OpenTransactions, openStep, ReplaysInOrder, CallbacksSucceed, ReportsFailure,
  LockedStore.start, ClearsStore
-/
import Newtmq.Core.TransactionLocks

namespace Newtmq

variable {σ : Type} (malloc : Nat → List UInt8) (callbacks : Nat → FrameObject → σ → Ret × σ)

/-! ### Callbacks -/

/-- The callbacks that were called, by their frames, with the results. -/
abbrev CallbackLog := List (FrameObject × Ret)

/-- The callbacks, with a record of the calls beside what they can change. -/
def logging (callback : Nat) (object : FrameObject) : CallbackLog × σ → Ret × CallbackLog × σ
  | (log, world) =>
      let (ret, world) := callbacks callback object world
      (ret, log ++ [(object, ret)], world)

/-- Each frame has a callback. -/
def HaveCallbacks (frames : List FrameObject) : Prop :=
  ∀ object ∈ frames, object.frame.transactionCallback.isSome

instance (frames : List FrameObject) : Decidable (HaveCallbacks frames) :=
  inferInstanceAs (Decidable (∀ object ∈ frames, _))

/-- The callbacks of the frames, called one after the other, return `RET_SUCCESS`. -/
def CallbacksSucceed : List FrameObject → σ → Prop
  | [], _ => True
  | object :: rest, world =>
      ∀ callback, object.frame.transactionCallback = some callback →
        (callbacks callback object world).1 = .success ∧
          CallbacksSucceed rest (callbacks callback object world).2

/-! ### The frames that were added -/

/-- The manager, what the callbacks can change, and a record beside the list of open transactions: for
each of them the frames that were added to it, the first one first. -/
structure OpenTransactions (σ : Type) where
  manager : TransactionManager
  world : σ
  added : List (List FrameObject)

/-- After `transaction_init`. -/
def OpenTransactions.start (world : σ) : OpenTransactions σ := ⟨.init, world, []⟩

/-- The frames that were added to the transaction at a place of the list. -/
def OpenTransactions.addedAt (s : OpenTransactions σ) (place : Nat) : List FrameObject :=
  (s.added[place]?).getD []

/-- A frame that is in no transaction. -/
def OpenTransactions.Unused (s : OpenTransactions σ) (object : FrameObject) : Prop :=
  ∀ frames ∈ s.added, object.address ∉ frames.map FrameObject.address

instance (s : OpenTransactions σ) (object : FrameObject) : Decidable (s.Unused object) :=
  inferInstanceAs (Decidable (∀ frames ∈ s.added, object.address ∉ frames.map FrameObject.address))

/-- The record after a call that works on the transaction it finds. -/
def OpenTransactions.addedAfter (s : OpenTransactions σ) (tid : List UInt8)
    (change : Nat → List (List FrameObject)) : List (List FrameObject) :=
  match getTransaction tid s.manager with
  | some place => change place
  | none => s.added

/-- A call that returns. A frame has one link for the list of a transaction, so it is added to one. -/
def openStep (s : OpenTransactions σ) : ManagerCall → Option (OpenTransactions σ)
  | .init => some { s with manager := { s.manager with list := [] }, added := [] }
  | .start tid =>
      (transactionStart malloc tid s.manager).map fun (ret, manager) =>
        { s with
          manager := manager
          added := if ret = .success then s.added ++ [[]] else s.added }
  | .add tid object =>
      if s.Unused object then
        some { s with
          manager := (transactionAdd tid object s.manager).2
          added := s.addedAfter tid fun place => s.added.modify place (· ++ [object]) }
      else none
  | .abort tid =>
      some { s with
        manager := (transactionAbort tid s.manager).2
        added := s.addedAfter tid s.added.eraseIdx }
  | .commit tid =>
      (transactionCommit callbacks tid s.manager s.world).map fun (_, manager, world) =>
        { s with
          manager := manager
          world := world
          added := s.addedAfter tid s.added.eraseIdx }

/-- A commit calls the callback of each frame that was added to the transaction at `place` once, in the
order in which they were added, and removes the transaction. -/
def ReplaysInOrder (tid : List UInt8) (place : Nat) (s : OpenTransactions σ) : Prop :=
  ∃ ret log world,
    transactionCommit (logging callbacks) tid s.manager ([], s.world) =
      some (ret, freeTransaction place s.manager, log, world) ∧
    log.map Prod.fst = s.addedAt place

/-! ### Failures -/

/-- A commit returns `RET_ERROR` when, and only when, a callback that it called has done so, and calls
none after that one. -/
def ReportsFailure (tid : List UInt8) (manager : TransactionManager) (world : σ) : Prop :=
  ∃ ret later log after,
    transactionCommit (logging callbacks) tid manager ([], world) = some (ret, later, log, after) ∧
    (ret = .error ↔ ∃ call ∈ log, call.2 = .error) ∧
    ∀ earlier call further, log = earlier ++ call :: further → call.2 = .error → further = []

/-! ### The destructor -/

/-- The store after `transaction_init`. -/
def LockedStore.start (world : σ) : LockedStore σ := Mutex.Guarded.free (.init, world)

/-- `transaction_destruct` returns `RET_SUCCESS`, the list is empty and the mutex is released. -/
def ClearsStore (s : LockedStore σ) : Prop :=
  ∃ last, Locked.transactionDestruct s = some (.success, last) ∧ last.value.1.list = [] ∧
    last.held = false

/-- A `malloc` that returns zeros. -/
def zeroMalloc : Nat → List UInt8 := fun _ => List.replicate TID_LEN 0

end Newtmq
