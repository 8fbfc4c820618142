/-
Module: Newtmq.Core.TopicWorkers
Purpose: `register_multicast_worker` statement by statement, beside the threads that it creates: a
  `multicast_worker` may run at any time after its `pthread_create`, also before the first client of its
  group is linked.
Trusted boundary: human-reviewed spec
Main exports: Registering, TopicWorkers, TopicAction, topicStep
-/
import Newtmq.Library.Transition
import Newtmq.Core.Connections

namespace Newtmq

/-- How far the management worker is in `register_multicast_worker`: it has been called, no group was
found, the group at `place` has been linked but has no thread, or the client is the next to be linked. -/
inductive Registering where
  | idle
  | called (sock : Int) (destination : List UInt8)
  | missing (sock : Int) (destination : List UInt8)
  | created (sock : Int) (place : Nat)
  | linking (sock : Int) (place : Nat)
deriving DecidableEq, Repr

structure TopicWorkers where
  base : Connections
  registering : Registering

/-- The server has started, and no frame has been handled. -/
def TopicWorkers.start (server : Server) : TopicWorkers :=
  ⟨Connections.start { server with workers := ⟨[], []⟩ } [], .idle⟩

def TopicWorkers.manager (s : TopicWorkers) : WorkerManager :=
  s.base.server.workers

def TopicWorkers.setManager (s : TopicWorkers) (manager : WorkerManager) : TopicWorkers :=
  { s with base := { s.base with server := { s.base.server with workers := manager } } }

/-- A step of the management worker, which calls `register_multicast_worker`, goes on in it, or enqueues
a frame; or a step of a connection or of a sending worker. -/
inductive TopicAction where
  | subscribe (sock : Int) (destination : List UInt8)
  | search
  | newGroup
  | spawn
  | link
  | publish (object : FrameObject) (qname : List UInt8)
  | base (action : ConnectionsAction)
deriving DecidableEq, Repr

/-- One step. The management worker handles frames by the steps above only. -/
def topicStep (env : ServerEnv) (s : TopicWorkers) : TopicAction → Option TopicWorkers
  | .subscribe sock destination =>
      match s.registering with
      | .idle => some { s with registering := .called sock destination }
      | _ => none
  | .search =>
      match s.registering with
      | .called sock destination =>
          match searchDestGroup destination s.manager with
          | some place => some { s with registering := .linking sock place }
          | none => some { s with registering := .missing sock destination }
      | _ => none
  | .newGroup =>
      match s.registering with
      | .missing sock destination =>
          let (place, manager) := createDestGroup destination s.manager
          some { s.setManager manager with registering := .created sock place }
      | _ => none
  | .spawn =>
      match s.registering with
      | .created sock place =>
          some { s.setManager (createWorker (.multicast place) s.manager) with
            registering := .linking sock place }
      | _ => none
  | .link =>
      match s.registering with
      | .linking sock place =>
          some { s.setManager (addClient place (allocClientInfo sock) s.manager) with
            registering := .idle }
      | _ => none
  | .publish object qname =>
      match s.registering with
      | .idle =>
          some { s with base := { s.base with server := enqueueFrame object qname s.base.server } }
      | _ => none
  | .base .manage => none
  | .base action => (connectionsStep env s.base action).map fun base => { s with base := base }

end Newtmq
