/-
Module: Newtmq.Core.CleanStop
Purpose: `cleanup_persistent_worker`, the handler of `SIGINT` in `persistent_worker.c`: it frees the
  `queue_info` objects when it gets the mutex of their list.
Trusted boundary: human-reviewed spec
Main exports: freeQinfo, cleanupPersistentList, cleanupPersistentWorker, Delivery.cleanup
-/
import Newtmq.Core.Delivery

namespace Newtmq

/-- `fclose` of the two files of a queue. Every `fwrite` is followed by an `fflush`, so nothing is left
to be written. -/
def closeFiles (_ : QueueInfo) (pm : PersistentManager) : PersistentManager := pm

/-- `free_qinfo`: the pending frames are unlinked, and the files are closed. -/
def freeQinfo (qinfo : QueueInfo) (pm : PersistentManager) : PersistentManager :=
  let qinfo := qinfo.unpersistent.foldl
    (fun qinfo _ => { qinfo with unpersistent := qinfo.unpersistent.tail }) qinfo
  closeFiles qinfo pm

/-- `cleanup_persistent_list`: each object leaves the list and is freed. -/
def cleanupPersistentList (pm : PersistentManager) : PersistentManager :=
  pm.qinfos.foldl (fun pm qinfo => freeQinfo qinfo { pm with qinfos := pm.qinfos.tail }) pm

/-- `cleanup_persistent_worker`. The flag of `stop_persistent_worker` is read by `persistent_worker`
only, which then ends. -/
def cleanupPersistentWorker (pm : PersistentManager) : Ret × PersistentManager :=
  (.success, cleanupPersistentList pm)

/-- The handler runs. The persistent worker holds `m_qinfo` inside its loop. -/
def Delivery.cleanup (s : Delivery) : Option (Ret × PersistentManager) :=
  if s.flusher = .outside then some (cleanupPersistentWorker s.pm) else none

end Newtmq
