/-
Module: Newtmq.Core.Persistent
Purpose: `persistent_worker.c`: the two files of a queue, the `queue_info` objects with their indexes
  and their lists of frames that wait to be written, and the functions that write them.
Trusted boundary: human-reviewed spec
Main exports: QueueFiles, QueueInfo, PersistentManager, frameBytes, persistQueueInfo,
  persistQueueContext, persistentWorkerPass, createQinfo, persistFrame, updateIndexSent
-/
import Newtmq.Core.Frame

namespace Newtmq

/-- The files `data` and `sent_index` of a queue directory. The second one, when it exists, holds one
`long`. -/
structure QueueFiles where
  data : List UInt8
  sentIndex : Option Int
deriving DecidableEq, Repr

/-- `queue_info_t`. `dirpath` is the directory that its two files are open in. -/
structure QueueInfo where
  qid : UInt64
  dirpath : List UInt8
  unpersistent : List FrameObject
  indexHead : Int
  indexSent : Int
  indexPersistent : Int
deriving DecidableEq, Repr

/-- `pm`, and the directories that exist, with their files. -/
structure PersistentManager where
  datadir : List UInt8
  qinfos : List QueueInfo
  disk : List UInt8 → Option QueueFiles

/-- The bytes that `persist_queue_context` writes for one frame. -/
def frameBytes (frame : Frame) : List UInt8 :=
  cstr frame.name ++ [LF] ++ frame.hAttrs.flatMap (fun header => header.bytes ++ [LF]) ++ [LF] ++
    frame.hData.flatMap Linedata.bytes ++ [0]

/-- The contents of a directory; of a file that does not exist, nothing can be read. -/
def PersistentManager.files (pm : PersistentManager) (dirpath : List UInt8) : QueueFiles :=
  (pm.disk dirpath).getD ⟨[], none⟩

def PersistentManager.setFiles (pm : PersistentManager) (dirpath : List UInt8)
    (files : QueueFiles) : PersistentManager :=
  { pm with disk := Function.update pm.disk dirpath (some files) }

/-- `persist_queue_info`. -/
def persistQueueInfo (qinfo : QueueInfo) (pm : PersistentManager) : PersistentManager :=
  pm.setFiles qinfo.dirpath { pm.files qinfo.dirpath with sentIndex := some qinfo.indexSent }

/-- `unpersist_queue_info`. -/
def unpersistQueueInfo (dirpath : List UInt8) (pm : PersistentManager) : Int :=
  (pm.files dirpath).sentIndex.getD 0

/-- `persist_queue_context` on one pending frame. -/
def persistOne (object : FrameObject) (qinfo : QueueInfo) (pm : PersistentManager) :
    QueueInfo × PersistentManager :=
  let files := pm.files qinfo.dirpath
  ({ qinfo with
      unpersistent := qinfo.unpersistent.tail
      indexPersistent := qinfo.indexPersistent + object.frame.size },
    pm.setFiles qinfo.dirpath { files with data := files.data ++ frameBytes object.frame })

/-- `persist_queue_context`: write the pending frames, the first one first. -/
def persistQueueContext (qinfo : QueueInfo) (pm : PersistentManager) :
    QueueInfo × PersistentManager :=
  qinfo.unpersistent.foldl (fun (qinfo, pm) object => persistOne object qinfo pm) (qinfo, pm)

/-- What one iteration of `persistent_worker` does with one `queue_info`. -/
def persistentWorkerPass (qinfo : QueueInfo) (pm : PersistentManager) :
    QueueInfo × PersistentManager :=
  let pm := persistQueueInfo qinfo pm
  if qinfo.indexPersistent < qinfo.indexHead then persistQueueContext qinfo pm else (qinfo, pm)

/-- `get_qinfo`: the place of the last `queue_info` with this id. -/
def getQinfo (id : UInt64) (pm : PersistentManager) : Option Nat :=
  lastMatch (fun qinfo => qinfo.qid = id) pm.qinfos

/-- `sizeof(long)`. -/
def SIZEOF_LONG : Int := 8

/-- `alloc_qinfo`, when `malloc` and the calls that make the directory and open the files succeed. With
a `sent_index` file at hand, the size read into `index_head` is the size of that file. -/
def allocQinfo (qname : List UInt8) (pm : PersistentManager) : QueueInfo × PersistentManager :=
  let dirpath := pm.datadir ++ cstring "/" ++ cstr qname
  let files := pm.files dirpath
  let size := if files.sentIndex.isSome then SIZEOF_LONG else 0
  let qinfo : QueueInfo :=
    { qid := getHash qname
      dirpath := dirpath
      unpersistent := []
      indexHead := size
      indexSent := unpersistQueueInfo dirpath pm
      indexPersistent := size }
  (qinfo, persistQueueInfo qinfo (pm.setFiles dirpath files))

/-- `create_qinfo`. -/
def createQinfo (qname : List UInt8) (pm : PersistentManager) : Nat × PersistentManager :=
  match getQinfo (getHash qname) pm with
  | some place => (place, pm)
  | none =>
      let (qinfo, pm) := allocQinfo qname pm
      (pm.qinfos.length, { pm with qinfos := pm.qinfos ++ [qinfo] })

/-- `persist_frame`: link the frame in `h_unpersistent`, then add its size to `index_head`. -/
def persistFrame (object : FrameObject) (qname : List UInt8) (pm : PersistentManager) :
    PersistentManager :=
  let (place, pm) := createQinfo qname pm
  { pm with
    qinfos := pm.qinfos.modify place fun qinfo =>
      { qinfo with
        unpersistent := qinfo.unpersistent ++ [object]
        indexHead := qinfo.indexHead + object.frame.size } }

/-- `update_index_sent`. -/
def updateIndexSent (qname : List UInt8) (object : FrameObject) (pm : PersistentManager) :
    Ret × PersistentManager :=
  match getQinfo (getHash qname) pm with
  | some place =>
      (.success,
        { pm with
          qinfos := pm.qinfos.modify place fun qinfo =>
            { qinfo with indexSent := qinfo.indexSent + object.frame.size } })
  | none => (.error, pm)

end Newtmq
