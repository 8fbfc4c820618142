/-
Module: Newtmq.Core.SubscriberRegistry
Purpose: The registry of subscribers of `stomp_management_worker.c`: a list of entries with the id and
  the thread of each, and the three functions that work on it.
Trusted boundary: human-reviewed spec
Main exports: ManagementInfo, registerSubscriber, ManagementInfo.unregisterSubscriber, getSubscriber,
  SubscriberCall, SubscriberAnswer, registryStep
-/
import Newtmq.Core.Server

namespace Newtmq

/-- `management_info`: the entries in list order, and how many were allocated so far. The id of an entry
is the content of its array. -/
structure ManagementInfo where
  hSubscribe : List Subscriber
  allocated : Nat
deriving DecidableEq, Repr

/-- `initialize_manager`. -/
def ManagementInfo.init : ManagementInfo := ⟨[], 0⟩

/-- `register_subscriber`. `memory` gives the content of the array of a new entry, or `none` where
`malloc` fails. The id is copied over it without its NUL, and `list_add` links the entry at the head. -/
def registerSubscriber (memory : Nat → Option (List UInt8)) (id : Option (List UInt8)) (tid : Nat)
    (info : ManagementInfo) : Ret × ManagementInfo :=
  match id with
  | none => (.success, info)
  | some id =>
      match memory info.allocated with
      | none => (.error, { info with allocated := info.allocated + 1 })
      | some array =>
          let copied := (cstr id).take LD_MAX
          (.success,
            { hSubscribe := ⟨copied ++ array.drop copied.length, tid⟩ :: info.hSubscribe
              allocated := info.allocated + 1 })

/-- `unregister_subscriber`: `list_first_entry` is the entry that goes. -/
def ManagementInfo.unregisterSubscriber (id : Option (List UInt8)) (info : ManagementInfo) :
    Ret × ManagementInfo :=
  match id, info.hSubscribe with
  | some _, _ :: rest => (.success, { info with hSubscribe := rest })
  | _, _ => (.error, info)

/-- `get_subscriber`. -/
def getSubscriber (id : Option (List UInt8)) (info : ManagementInfo) : Option Subscriber :=
  match id with
  | some _ => info.hSubscribe.head?
  | none => none

/-- An id that is not `NULL` and is shorter than the array of an entry. -/
structure SubscriberId where
  bytes : List UInt8
  clean : (0 : UInt8) ∉ bytes
  short : bytes.length < LD_MAX
deriving DecidableEq

/-- A call of one of the three functions. -/
inductive SubscriberCall where
  | register (id : SubscriberId) (tid : Nat)
  | unregister (id : SubscriberId)
  | get (id : SubscriberId)

/-- What a call returns: a return code, or an entry or `NULL`. -/
inductive SubscriberAnswer where
  | code (ret : Ret)
  | entry (found : Option Subscriber)
deriving DecidableEq, Repr

/-- One call. -/
def registryStep (memory : Nat → Option (List UInt8)) (info : ManagementInfo) :
    SubscriberCall → SubscriberAnswer × ManagementInfo
  | .register id tid =>
      let (ret, info) := registerSubscriber memory (some id.bytes) tid info
      (.code ret, info)
  | .unregister id =>
      let (ret, info) := info.unregisterSubscriber (some id.bytes)
      (.code ret, info)
  | .get id => (.entry (getSubscriber (some id.bytes) info), info)

end Newtmq
