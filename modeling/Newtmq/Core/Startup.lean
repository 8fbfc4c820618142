/-
Module: Newtmq.Core.Startup
Purpose: `unpersist` of `persistent_worker.c`: when the process starts, walk through the entries of the
  data directory, and put the frames of each one into the queue that has the name of the entry.
Trusted boundary: human-reviewed spec
Main exports: StartupEnv, Startup, unpersistEntry, unpersist
-/
import Newtmq.Core.Unpersist
import Newtmq.Core.Queue

namespace Newtmq

def FNAME_DATA : List UInt8 := cstring "data"

def FNAME_SENT_INDEX : List UInt8 := cstring "sent_index"

/-- What the system gives to `unpersist`: the names that `readdir` returns, the paths that are
directories, and the results of `rand()`. When the frames of an entry are read, `rand()` has been
called `rands` times, and `frame_buffer` holds something at first. -/
structure StartupEnv where
  entries : List (List UInt8)
  isDirectory : List UInt8 → Bool
  rand : Nat → Nat
  rands : List UInt8 → Nat
  frameBuffer : List UInt8 → List UInt8

/-- The process while it starts, with the static buffer of `parse_frame` and a record of the calls of
`enqueue`. -/
structure Startup where
  pm : PersistentManager
  queues : QueueStore Frame
  prevBuffer : Option (List UInt8)
  enqueued : List (List UInt8 × Frame)

/-- The process before `unpersist`, with what it finds in the data directory. -/
def Startup.init (pm : PersistentManager) : Startup :=
  { pm := { pm with qinfos := [] }, queues := .empty, prevBuffer := none, enqueued := [] }

/-- `alloc_qinfo` finds a directory at `dirpath`, and no directory where it opens the files. -/
def StartupEnv.allocates (env : StartupEnv) (dirpath : List UInt8) : Bool :=
  env.isDirectory dirpath && !env.isDirectory (dirpath ++ cstring "/" ++ FNAME_DATA) &&
    !env.isDirectory (dirpath ++ cstring "/" ++ FNAME_SENT_INDEX)

/-- Put the frames into the queue, the first one first. -/
def Startup.enqueueAll (s : Startup) (qname : List UInt8) (frames : List Frame) : Startup :=
  frames.foldl
    (fun s frame =>
      { s with
        queues := (enqueue (some frame) qname s.queues).2
        enqueued := s.enqueued ++ [(qname, frame)] }) s

/-- One pass of the loop over the entries. `none` means that the process ends, or goes on with an
object that has been freed. -/
def unpersistEntry (env : StartupEnv) (dName : List UInt8) (s : Startup) : Option Startup :=
  if dName.head? = some 46 then some s
  else
    let dirpath := s.pm.datadir ++ cstring "/" ++ cstr dName
    if getQinfo (getHash dName) s.pm = none ∧ env.allocates dirpath = false then
      -- The assertion of `create_qinfo` fails.
      none
    else
      let (place, pm) := createQinfo dName s.pm
      match (pm.files dirpath).sentIndex with
      | none =>
          -- `unpersist_queue_info` calls `fclose` on `NULL`.
          none
      | some sentIndex =>
          let pm := { pm with
            qinfos := pm.qinfos.modify place fun qinfo => { qinfo with indexSent := sentIndex } }
          if env.isDirectory (dirpath ++ cstring "/" ++ FNAME_DATA) then some { s with pm := pm }
          else
            let size : Int := (pm.files dirpath).data.length
            let pm := { pm with
              qinfos := pm.qinfos.modify place fun qinfo =>
                { qinfo with indexHead := size, indexPersistent := size } }
            match unpersistQueueContext env.rand (env.frameBuffer dName) dirpath pm s.prevBuffer
                (env.rands dName) with
            | some (.success, frames, prevBuffer) =>
                some (Startup.enqueueAll { s with pm := pm, prevBuffer := prevBuffer } dName frames)
            | some (.error, _, _) =>
                -- `free_qinfo` leaves the object in the list.
                none
            | none => none

/-- `unpersist`, after `initialize_persistent_worker`. -/
def unpersist (env : StartupEnv) (pm : PersistentManager) : Option Startup :=
  env.entries.foldlM (fun s dName => unpersistEntry env dName s) (Startup.init pm)

end Newtmq
