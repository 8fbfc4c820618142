/-
Module: Newtmq.Spec.TransactionMap
Purpose: What the transaction functions are meant to be: a map from exact transaction ids to the frames
  of the open transactions. What it means that the code behaves as this map on a set of ids.
Trusted boundary: human-reviewed spec
Main exports: TransactionId, TransactionCall, storeStep, TransactionMap, mapStep,
  RefinesTransactionMap, PrefixFree
-/
import Newtmq.Library.Responder
import Newtmq.Core.Transaction
import Mathlib.Logic.Function.Basic
import Mathlib.Data.Set.Basic

namespace Newtmq

open Responder (responses)

/-- A transaction id: a C string that is not empty and fits the array `tid`, without its NUL at the
longest. -/
@[ext]
structure TransactionId where
  bytes : List UInt8
  nonempty : bytes ≠ []
  clean : (0 : UInt8) ∉ bytes
  short : bytes.length ≤ TID_LEN

instance : DecidableEq TransactionId := fun _ _ => decidable_of_iff _ TransactionId.ext_iff.symm

@[simp] theorem TransactionId.cstr_bytes (id : TransactionId) : cstr id.bytes = id.bytes :=
  cstr_of_not_mem id.clean

/-- A call of one of the four functions. -/
inductive TransactionCall where
  | start (id : TransactionId)
  | add (id : TransactionId) (object : FrameObject)
  | abort (id : TransactionId)
  | commit (id : TransactionId)

def TransactionCall.id : TransactionCall → TransactionId
  | .start id => id
  | .add id _ => id
  | .abort id => id
  | .commit id => id

section Steps

variable {σ : Type} (malloc : Nat → List UInt8) (callbacks : Nat → FrameObject → σ → Ret × σ)

/-- A call of the code: the return code and what the callbacks can change, or no answer when the call
does not return. -/
def storeStep : TransactionManager × σ → TransactionCall →
    Option ((Ret × σ) × (TransactionManager × σ))
  | (manager, world), .start id =>
      (transactionStart malloc id.bytes manager).map fun (ret, manager) =>
        ((ret, world), (manager, world))
  | (manager, world), .add id object =>
      let (ret, manager) := transactionAdd id.bytes object manager
      some ((ret, world), (manager, world))
  | (manager, world), .abort id =>
      let (ret, manager) := transactionAbort id.bytes manager
      some ((ret, world), (manager, world))
  | (manager, world), .commit id =>
      (transactionCommit callbacks id.bytes manager world).map fun (ret, manager, world) =>
        ((ret, world), (manager, world))

/-- The open transactions, with their frames, the one added last first. -/
abbrev TransactionMap := TransactionId → Option (List FrameObject)

/-- A call on the map. A commit runs the callbacks of the frames of the transaction. -/
def mapStep : TransactionMap × σ → TransactionCall → Option ((Ret × σ) × (TransactionMap × σ))
  | (transactions, world), .start id =>
      match transactions id with
      | some _ => some ((.error, world), (transactions, world))
      | none => some ((.success, world), (Function.update transactions id (some []), world))
  | (transactions, world), .add id object =>
      match transactions id with
      | some frames =>
          some ((.success, world),
            (Function.update transactions id (some (object :: frames)), world))
      | none => some ((.error, world), (transactions, world))
  | (transactions, world), .abort id =>
      match transactions id with
      | some _ => some ((.success, world), (Function.update transactions id none, world))
      | none => some ((.error, world), (transactions, world))
  | (transactions, world), .commit id =>
      match transactions id with
      | some frames =>
          (Loop.run (commitPass callbacks) (frames.length + 1) (frames, world)).map fun world =>
            ((.success, world), (Function.update transactions id none, world))
      | none => some ((.error, world), (transactions, world))

end Steps

/-- On these ids the code behaves as the map: for every sequence of calls, whatever a fresh allocation
holds and whatever the callbacks do, the calls return the same codes with the same effects. -/
def RefinesTransactionMap (ids : Set TransactionId) : Prop :=
  ∀ (malloc : Nat → List UInt8) (σ : Type) (callbacks : Nat → FrameObject → σ → Ret × σ)
    (world : σ) (calls : List TransactionCall), (∀ call ∈ calls, call.id ∈ ids) →
    responses (storeStep malloc callbacks) (TransactionManager.init, world) calls =
      responses (mapStep callbacks) (fun _ => none, world) calls

/-- No id of the set is the beginning of another one. -/
def PrefixFree (ids : Set TransactionId) : Prop :=
  ∀ a ∈ ids, ∀ b ∈ ids, a.bytes <+: b.bytes → a = b

end Newtmq
