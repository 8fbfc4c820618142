/-
Module: Newtmq.Core.Publishing
Purpose: The connection threads, which publish the frames they have completed, and the management worker,
  which takes them from the bucket and handles them. Sending workers empty the queues meanwhile.
Trusted boundary: human-reviewed spec
Main exports: Publishing, PublishingAction, publishingStep
-/
import Newtmq.Core.Handlers

namespace Newtmq

/-- The bucket, the frame that `get_frame_from_bucket` has returned to the management worker, and the
server. Two records: the frames that `frame_finish` has linked, with the numbers of their connections,
and the frames that were handled. -/
structure Publishing where
  bucket : List FrameObject
  popped : Option FrameObject
  server : Server
  completed : List (Nat × FrameObject)
  handled : List FrameObject

def Publishing.start (server : Server) : Publishing := ⟨[], none, server, [], []⟩

/-- A connection thread finishes a frame, the management worker takes a frame or handles it, or a
sending worker calls `dequeue`. -/
inductive PublishingAction where
  | finish (connection : Nat) (frame : Frame)
  | get
  | handle
  | dequeue (qname : List UInt8)
deriving DecidableEq, Repr

/-- One step. A frame has an address of its own, and no callback when a connection completes it. -/
def publishingStep (env : ServerEnv) (s : Publishing) : PublishingAction → Option Publishing
  | .finish connection frame =>
      if frame.transactionCallback = none then
        let object : FrameObject := ⟨s.completed.length, frame⟩
        some { s with
          bucket := s.bucket ++ [object]
          completed := s.completed ++ [(connection, object)] }
      else none
  | .get =>
      match s.popped, s.bucket with
      | none, object :: rest => some { s with bucket := rest, popped := some object }
      | none, [] => some s
      | some _, _ => none
  | .handle =>
      s.popped.bind fun object =>
        (serverStep env s.server (.handle object)).map fun server =>
          { s with popped := none, server := server, handled := s.handled ++ [object] }
  | .dequeue qname =>
      (serverStep env s.server (.dequeue qname)).map fun server => { s with server := server }

end Newtmq
