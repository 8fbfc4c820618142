/-
Module: Newtmq.Core.FrameHandover
Purpose: A connection thread that receives frames, and the management worker that pops them from the
  bucket, handles and frees them. A step of the thread ends where `frame_finish` links the frame, so
  that the worker can run before the rest of `frame_update`.
Trusted boundary: human-reviewed spec
Main exports: linkUpdate, grown, linkedFrame, Handover, HandoverAction, handoverStep, HandedOver
-/
import Newtmq.Core.Handlers
import Mathlib.Logic.Function.Basic

namespace Newtmq

/-! ### The two parts of `frame_update` -/

/-- The part of `frame_update` up to the end of `frame_finish`: the frame as it is linked, when the
line finishes it. -/
def linkUpdate (finish : Frame → Frame) (line : List UInt8) (len : Nat) (frame : Frame) :
    Option Frame :=
  match frame.status with
  | .inputHeader => if isNl line && frame.contentlen = 0 then some (finish frame) else none
  | .inputBody =>
      let stored := frameBodyPiece line len frame
      if stored.contentlen ≤ stored.hasContentlen then some (finish stored) else none
  | _ => none

/-- The statement `frame->size += 1` that follows `frame_finish`. -/
def grown (frame : Frame) : Frame :=
  { frame with size := wrap32 (frame.size + 1) }

/-- The frame that is linked for a line of `lineLen` bytes at `curr`, if one is. -/
def linkedLine (env : RecvEnv) (sock : Int) (curr : List UInt8) (lineLen : Nat) (st : RecvState) :
    Option Frame :=
  let line := joinedLine st.cinfo curr lineLen
  if st.cinfo.frame.isSome || 0 < line.2 then
    linkUpdate (frameFinish env st.rands) line.1 line.2 (prepareFrame sock st.cinfo)
  else none

/-- The frame that a pass of `recv_data` links, if it does. -/
def linkedFrame (env : RecvEnv) (sock : Int) (curr : List UInt8) (st : RecvState) : Option Frame :=
  let line := ssplit curr st.isBodyInput
  if line.1 = .error ∧ isFrameName curr line.2 = .error then none
  else linkedLine env sock curr line.2 st

/-! ### The threads -/

/-- The connection thread has `curr` left of a chunk and `chunks` to receive. `recv` is what it works
on besides; its bucket stays empty, since the bucket is the one of the addresses below. The frame that
is being received has, or will get, the address `current`. `pending` is a linked frame with which
`frame_update` is not done. `frames` tells what the linked frames hold, `popped` is the frame that the
worker handles. Three records: the frames that were ever linked, the sizes that the worker has seen, and
the accesses of the thread to frames that were linked. -/
structure Handover where
  curr : List UInt8
  chunks : List (List UInt8)
  recv : RecvState
  closed : Bool
  current : Nat
  pending : Option Nat
  frames : Nat → Frame
  bucket : List Nat
  popped : Option Nat
  server : Server
  linked : List Nat
  seen : List (Nat × Int)
  touched : List Nat

/-- A new connection that will receive some chunks. -/
def Handover.start (cinfoId : List UInt8) (rands : Nat) (chunks : List (List UInt8))
    (server : Server) : Handover :=
  { curr := []
    chunks := chunks
    recv := ⟨⟨cinfoId, none, none⟩, [], [], rands⟩
    closed := false
    current := 0
    pending := none
    frames := fun _ => allocFrame
    bucket := []
    popped := none
    server := server
    linked := []
    seen := []
    touched := [] }

/-- The thread reads or writes fields of the frame at an address. -/
def Handover.touch (s : Handover) (address : Nat) : Handover :=
  { s with touched := if address ∈ s.linked then s.touched ++ [address] else s.touched }

/-- `list_add_tail` of the frame that was being received. -/
def Handover.link (s : Handover) (frame : Frame) : Handover :=
  { s with
    frames := Function.update s.frames s.current frame
    bucket := s.bucket ++ [s.current]
    linked := s.linked ++ [s.current]
    current := s.current + 1 }

/-- The thread receives a chunk, makes a pass of `recv_data` up to the link if there is one, goes on
with `frame_update` after a link, or runs `conn_finish`. The worker pops a frame, or handles it. -/
inductive HandoverAction where
  | receive
  | pass
  | grow
  | close
  | pop
  | handle
deriving DecidableEq, Repr

section Step

variable (env : ServerEnv) (sock : Int)

/-- The passes of `recv_data`. -/
def Handover.pass (s : Handover) : Option Handover :=
  if s.pending.isSome ∨ s.curr = [] then none
  else
    match recvPass env.toRecvEnv sock (s.curr, s.recv) with
    | .leave st => some { s.touch s.current with curr := [], recv := st }
    | .again (next, st) =>
        match linkedFrame env.toRecvEnv sock s.curr s.recv with
        | some frame =>
            some { (s.touch s.current).link frame with
              curr := next
              recv := { st with bucket := [] }
              pending := some s.current }
        | none => some { s.touch s.current with curr := next, recv := { st with bucket := [] } }

/-- The thread has received everything. -/
def Handover.close (s : Handover) : Option Handover :=
  if s.pending.isSome ∨ s.curr ≠ [] ∨ s.chunks ≠ [] ∨ s.closed then none
  else
    let st := connFinish env.toRecvEnv s.recv
    let s := { s.touch s.current with closed := true, recv := { st with bucket := [] } }
    match st.bucket with
    | [] => some s
    | frame :: _ => some (s.link frame)

/-- One step. -/
def handoverStep (s : Handover) : HandoverAction → Option Handover
  | .receive =>
      if s.pending.isSome ∨ s.curr ≠ [] then none
      else
        match s.chunks with
        | [] => none
        | chunk :: chunks => some { s with curr := chunk, chunks := chunks }
  | .pass => s.pass env sock
  | .grow =>
      match s.pending with
      | none => none
      | some address =>
          some { s.touch address with
            frames := Function.update s.frames address (grown (s.frames address))
            pending := none }
  | .close => s.close env
  | .pop =>
      if s.popped.isSome then none
      else
        match s.bucket with
        | [] => none
        | address :: rest =>
            some { s with
              bucket := rest
              popped := some address
              seen := s.seen ++ [(address, (s.frames address).size)] }
  | .handle =>
      match s.popped with
      | none => none
      | some address =>
          (handleFrame env ⟨address, s.frames address⟩ s.server).map fun server =>
            { s with server := server, popped := none }

end Step

/-- The frames are handed over: the thread has touched none after it was linked, and the sizes that the
worker has seen are the ones the frames have. -/
structure HandedOver (s : Handover) : Prop where
  untouched : s.touched = []
  final : ∀ entry ∈ s.seen, (s.frames entry.1).size = entry.2

end Newtmq
