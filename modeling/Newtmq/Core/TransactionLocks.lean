/-
Module: Newtmq.Core.TransactionLocks
Purpose: `transaction.c` with `manager.mutex`, which is not recursive: which of the functions lock it, and
  which do so while they hold it. The mutex of a transaction object is locked and unlocked within one
  function and is left out.
Trusted boundary: human-reviewed spec
Main exports: LockedStore, Locked.transactionStart, Locked.transactionAdd, Locked.transactionAbort,
  Locked.transactionCommit, Locked.transactionDestruct, ManagerCall, lockedStep
-/
import Newtmq.Library.Mutex
import Newtmq.Core.Transaction

namespace Newtmq

open Mutex (Guarded critical)

/-- The manager with its mutex, and what the callbacks of frames can change. -/
abbrev LockedStore (σ : Type) := Guarded (TransactionManager × σ)

section Locked

variable {σ : Type}

/-- The thread changes the manager. -/
def setManager (manager : TransactionManager) (s : LockedStore σ) : LockedStore σ :=
  { s with value := (manager, s.value.2) }

/-- `get_transaction`. -/
def Locked.getTransaction (tid : List UInt8) : LockedStore σ → Option (Option Nat × LockedStore σ) :=
  critical fun s => some (Newtmq.getTransaction tid s.value.1, s)

/-- `alloc_transaction`. -/
def Locked.allocTransaction (malloc : Nat → List UInt8) (tid : List UInt8) :
    LockedStore σ → Option (Unit × LockedStore σ) :=
  critical fun s =>
    (Newtmq.allocTransaction malloc tid s.value.1).map fun manager => ((), setManager manager s)

/-- `free_transaction`. -/
def Locked.freeTransaction (place : Nat) : LockedStore σ → Option (Ret × LockedStore σ) :=
  critical fun s => some (.success, setManager (Newtmq.freeTransaction place s.value.1) s)

/-- `transaction_init`: the list is empty and the mutex is new. -/
def Locked.transactionInit (s : LockedStore σ) : LockedStore σ :=
  Guarded.free ({ s.value.1 with list := [] }, s.value.2)

/-- The loop of `transaction_destruct` over the transactions of the list. Those before the one at hand
have been removed, so it is the first one. -/
def Locked.destructLoop : List Transaction → LockedStore σ → Option (LockedStore σ)
  | [], s => some s
  | _ :: rest, s => (freeTransaction 0 s).bind fun (_, s) => destructLoop rest s

/-- `transaction_destruct`. -/
def Locked.transactionDestruct : LockedStore σ → Option (Ret × LockedStore σ) :=
  critical fun s => (destructLoop s.value.1.list s).map fun s => (.success, s)

/-- `transaction_start`. -/
def Locked.transactionStart (malloc : Nat → List UInt8) (tid : List UInt8) (s : LockedStore σ) :
    Option (Ret × LockedStore σ) :=
  (getTransaction tid s).bind fun (found, s) =>
    match found with
    | some _ => some (.error, s)
    | none => (allocTransaction malloc tid s).map fun (_, s) => (.success, s)

/-- `transaction_add`. -/
def Locked.transactionAdd (tid : List UInt8) (object : FrameObject) (s : LockedStore σ) :
    Option (Ret × LockedStore σ) :=
  (getTransaction tid s).map fun (found, s) =>
    match found with
    | some place =>
        (.success,
          setManager
            { s.value.1 with
              list := s.value.1.list.modify place fun transaction =>
                { transaction with frames := object :: transaction.frames } } s)
    | none => (.error, s)

/-- `transaction_abort`. -/
def Locked.transactionAbort (tid : List UInt8) (s : LockedStore σ) : Option (Ret × LockedStore σ) :=
  (getTransaction tid s).bind fun (found, s) =>
    match found with
    | some place => (freeTransaction place s).map fun (_, s) => (.success, s)
    | none => some (.error, s)

/-- `transaction_commit`. -/
def Locked.transactionCommit (callbacks : Nat → FrameObject → σ → Ret × σ) (tid : List UInt8)
    (s : LockedStore σ) : Option (Ret × LockedStore σ) :=
  (getTransaction tid s).bind fun (found, s) =>
    match found with
    | some place =>
        let frames := s.value.1.framesAt place
        (Loop.run (commitPass callbacks) (frames.length + 1) (frames, s.value.2)).bind fun world =>
          (freeTransaction place { s with value := (s.value.1, world) }).map fun (_, s) => (.success, s)
    | none => some (.error, s)

end Locked

/-- A call of one of the functions, with any id. -/
inductive ManagerCall where
  | init
  | start (tid : List UInt8)
  | add (tid : List UInt8) (object : FrameObject)
  | abort (tid : List UInt8)
  | commit (tid : List UInt8)
deriving DecidableEq, Repr

/-- The state after a call that returns. -/
def lockedStep {σ : Type} (malloc : Nat → List UInt8) (callbacks : Nat → FrameObject → σ → Ret × σ)
    (s : LockedStore σ) : ManagerCall → Option (LockedStore σ)
  | .init => some (Locked.transactionInit s)
  | .start tid => (Locked.transactionStart malloc tid s).map Prod.snd
  | .add tid object => (Locked.transactionAdd tid object s).map Prod.snd
  | .abort tid => (Locked.transactionAbort tid s).map Prod.snd
  | .commit tid => (Locked.transactionCommit callbacks tid s).map Prod.snd

end Newtmq
