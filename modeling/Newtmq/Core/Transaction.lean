/-
Module: Newtmq.Core.Transaction
Purpose: `transaction.c`: the list of open transactions, found by a comparison of the first bytes of
  their ids, and the loop that commits one, which calls the callback of each of its frames.
Trusted boundary: human-reviewed spec
Main exports: Transaction, TransactionManager, getTransaction, transactionStart, transactionAdd,
  transactionAbort, commitPass, transactionCommit
-/
import Newtmq.Library.Loop
import Newtmq.Core.Frame

namespace Newtmq

/-- The size of the array `tid`. -/
def TID_LEN : Nat := 512

/-- `transaction_t`: the bytes of the array `tid`, and the frames of `h_frame` in list order. -/
structure Transaction where
  tid : List UInt8
  frames : List FrameObject
deriving DecidableEq, Repr

/-- `manager`: the transactions in list order, and how many were allocated so far. -/
structure TransactionManager where
  list : List Transaction
  allocated : Nat
deriving DecidableEq, Repr

/-- `transaction_init`. -/
def TransactionManager.init : TransactionManager := ⟨[], 0⟩

/-- The comparison of `get_transaction`, `strncmp(t->tid, tid, strlen(tid)) == 0`. -/
def Transaction.matches (tid : List UInt8) (transaction : Transaction) : Bool :=
  (cstr tid).isPrefixOf transaction.tid

/-- `get_transaction`: the place of the transaction that is found. -/
def getTransaction (tid : List UInt8) (manager : TransactionManager) : Option Nat :=
  lastMatch (Transaction.matches tid) manager.list

/-- The frames of the transaction at a place of the list. -/
def TransactionManager.framesAt (manager : TransactionManager) (place : Nat) : List FrameObject :=
  match manager.list[place]? with
  | some transaction => transaction.frames
  | none => []

/-- `alloc_transaction`. The id is copied over the bytes that `malloc` returned, without its NUL.
`none` means that the id does not fit the array. -/
def allocTransaction (malloc : Nat → List UInt8) (tid : List UInt8) (manager : TransactionManager) :
    Option TransactionManager :=
  let id := cstr tid
  if TID_LEN < id.length then none
  else
    some
      { list := manager.list ++
          [{ tid := id ++ (malloc manager.allocated).drop id.length, frames := [] }]
        allocated := manager.allocated + 1 }

/-- `transaction_start`. -/
def transactionStart (malloc : Nat → List UInt8) (tid : List UInt8) (manager : TransactionManager) :
    Option (Ret × TransactionManager) :=
  match getTransaction tid manager with
  | some _ => some (.error, manager)
  | none => (allocTransaction malloc tid manager).map fun manager => (.success, manager)

/-- `transaction_add`: `list_add` links the frame at the head. -/
def transactionAdd (tid : List UInt8) (object : FrameObject) (manager : TransactionManager) :
    Ret × TransactionManager :=
  match getTransaction tid manager with
  | some place =>
      (.success,
        { manager with
          list := manager.list.modify place fun transaction =>
            { transaction with frames := object :: transaction.frames } })
  | none => (.error, manager)

/-- `free_transaction`. -/
def freeTransaction (place : Nat) (manager : TransactionManager) : TransactionManager :=
  { manager with list := manager.list.eraseIdx place }

/-- `transaction_abort`. -/
def transactionAbort (tid : List UInt8) (manager : TransactionManager) : Ret × TransactionManager :=
  match getTransaction tid manager with
  | some place => (.success, freeTransaction place manager)
  | none => (.error, manager)

section Commit

variable {σ : Type} (callbacks : Nat → FrameObject → σ → Ret × σ)

/-- One pass of the loop of `transaction_commit`. A frame without a callback stays where it is, and
the next pass meets it again. -/
def commitPass : List FrameObject × σ → Loop.Step (List FrameObject × σ) σ
  | ([], world) => .leave world
  | (object :: rest, world) =>
      match object.frame.transactionCallback with
      | some callback =>
          match callbacks callback object world with
          | (.error, world) => .leave world
          | (.success, world) => .again (rest, world)
      | none => .again (object :: rest, world)

/-- `transaction_commit`. `callbacks` runs the callback at an address on what it can change. The inner
declaration of `ret_callback` hides the outer one, which stays `RET_SUCCESS`. `none` means that the
loop does not end (`commit_terminates_iff`). -/
def transactionCommit (tid : List UInt8) (manager : TransactionManager) (world : σ) :
    Option (Ret × TransactionManager × σ) :=
  match getTransaction tid manager with
  | some place =>
      let frames := manager.framesAt place
      (Loop.run (commitPass callbacks) (frames.length + 1) (frames, world)).map fun world =>
        (.success, freeTransaction place manager, world)
  | none => some (.error, manager, world)

end Commit

end Newtmq
