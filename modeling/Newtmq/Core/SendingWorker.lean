/-
Module: Newtmq.Core.SendingWorker
Purpose: The registration side of `stomp_sending_worker.c`: the groups of clients of one destination,
  and the threads that are created to serve them.
Trusted boundary: human-reviewed spec
Main exports: ClientInfo, DestGroup, Worker, WorkerManager, searchDestGroup, registerReplyWorker,
  registerUnicastWorker, registerMulticastWorker
-/
import Newtmq.Core.Common

namespace Newtmq

/-- `client_info_t`. No code sets `id`, which stays `NULL`. -/
structure ClientInfo where
  sock : Int
  id : Option (List UInt8)
deriving DecidableEq, Repr

/-- `dest_group_t`: the clients of `h_client` in list order. -/
structure DestGroup where
  destination : List UInt8
  clients : List ClientInfo
deriving DecidableEq, Repr

/-- The argument of a `pthread_create`: the function, and the group it serves, by its place in the
list of groups, with the client where there is one. -/
inductive Worker where
  | reply (group : Nat) (client : ClientInfo)
  | unicast (group : Nat) (client : ClientInfo)
  | multicast (group : Nat)
deriving DecidableEq, Repr

/-- `worker_manager` and the threads created so far. -/
structure WorkerManager where
  groups : List DestGroup
  workers : List Worker
deriving DecidableEq, Repr

/-- `alloc_client_info`, with the socket that every caller sets. -/
def allocClientInfo (sock : Int) : ClientInfo := ⟨sock, none⟩

/-- `search_dest_group`, on a destination given by its characters. -/
def searchDestGroup (destination : List UInt8) (manager : WorkerManager) : Option Nat :=
  manager.groups.findIdx? fun group => group.destination = destination

/-- `alloc_dest_group` and `initialize_dest_group`. -/
def createDestGroup (destination : List UInt8) (manager : WorkerManager) : Nat × WorkerManager :=
  (manager.groups.length, { manager with groups := manager.groups ++ [⟨destination, []⟩] })

/-- Link a client in a group. -/
def addClient (place : Nat) (client : ClientInfo) (manager : WorkerManager) : WorkerManager :=
  { manager with
    groups := manager.groups.modify place fun group =>
      { group with clients := group.clients ++ [client] } }

def createWorker (worker : Worker) (manager : WorkerManager) : WorkerManager :=
  { manager with workers := manager.workers ++ [worker] }

/-- `register_reply_worker`. -/
def registerReplyWorker (sock : Int) (destination : List UInt8) (manager : WorkerManager) :
    WorkerManager :=
  match searchDestGroup destination manager with
  | some _ => manager
  | none =>
      let (place, manager) := createDestGroup destination manager
      let client := allocClientInfo sock
      createWorker (.reply place client) (addClient place client manager)

/-- The group of a destination, created when there is none. -/
def getDestGroup (destination : List UInt8) (manager : WorkerManager) : Nat × WorkerManager :=
  match searchDestGroup destination manager with
  | some place => (place, manager)
  | none => createDestGroup destination manager

/-- `register_unicast_worker`. The argument `id` is not used. -/
def registerUnicastWorker (sock : Int) (destination : List UInt8) (manager : WorkerManager) :
    WorkerManager :=
  let (place, manager) := getDestGroup destination manager
  let client := allocClientInfo sock
  createWorker (.unicast place client) (addClient place client manager)

/-- `register_multicast_worker`: a thread is created with the group only. -/
def registerMulticastWorker (sock : Int) (destination : List UInt8) (manager : WorkerManager) :
    WorkerManager :=
  let client := allocClientInfo sock
  match searchDestGroup destination manager with
  | some place => addClient place client manager
  | none =>
      let (place, manager) := createDestGroup destination manager
      addClient place client (createWorker (.multicast place) manager)

end Newtmq
