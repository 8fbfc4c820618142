/-
Module: Newtmq.Core.Stomp
Purpose: The receiving side of `stomp.c`: the connection object, the bucket of published frames, and
  `recv_data`, whose loop over one received chunk may or may not end.
Trusted boundary: human-reviewed spec
Main exports: StompConninfo, RecvState, RecvEnv, connInit, connFinish, recvPass, recvData, recvChunks
-/
import Newtmq.Library.Loop
import Newtmq.Core.Frame

namespace Newtmq

/-- One call of `send_msg`: the socket and the bytes. -/
structure SendMsg where
  sock : Int
  msg : List UInt8
deriving DecidableEq, Repr, Inhabited

/-- The heap buffer `prev_data`: the `prev_len` bytes saved in it and the size it was allocated
with. -/
structure PrevData where
  bytes : List UInt8
  allocated : Nat
deriving DecidableEq, Repr, Inhabited

/-- `stomp_conninfo_t`. The buffer is absent when `prev_data` is `NULL`, and `prev_len` is 0 then. -/
structure StompConninfo where
  id : List UInt8
  frame : Option Frame
  prevData : Option PrevData
deriving DecidableEq, Repr, Inhabited

def StompConninfo.prevLen (cinfo : StompConninfo) : Nat :=
  match cinfo.prevData with
  | some prev => prev.bytes.length
  | none => 0

def CONN_ID_LEN : Nat := 10

/-- What the system answers to the code: the results of `rand()`, and whether a socket is valid
after some messages were sent. -/
structure RecvEnv where
  rand : Nat → Nat
  socketValid : List SendMsg → Int → Bool

/-- What `recv_data` reads and writes: the connection, `stomp_frame_bucket.h_frame` in list order,
the messages sent so far, and the number of calls of `rand()`. -/
structure RecvState where
  cinfo : StompConninfo
  bucket : List Frame
  wire : List SendMsg
  rands : Nat
deriving DecidableEq, Repr, Inhabited

/-- `conn_init`. -/
def connInit (env : RecvEnv) (rands : Nat) : StompConninfo :=
  { id := genRandom env.rand rands CONN_ID_LEN, frame := none, prevData := none }

/-- The assignments of `frame_finish`. -/
def frameFinish (env : RecvEnv) (rands : Nat) (frame : Frame) : Frame :=
  { frame with status := .inBucket, id := genRandom env.rand rands FRAME_ID_LEN }

/-- `stomp_send_error`. -/
def stompSendError (env : RecvEnv) (sock : Int) (body : List UInt8) (wire : List SendMsg) :
    List SendMsg :=
  if env.socketValid wire sock then
    wire ++ [⟨sock, cstring "ERROR\n"⟩, ⟨sock, [LF]⟩, ⟨sock, body⟩, ⟨sock, [0]⟩]
  else wire

/-- `prepare_frame`. -/
def prepareFrame (sock : Int) (cinfo : StompConninfo) : Frame :=
  match cinfo.frame with
  | some frame => frame
  | none => { allocFrame with sock := sock, cinfo := some cinfo.id }

/-- Save an unfinished line: reallocate or allocate `prev_data`, clear the new part and copy. -/
def savePrev (cinfo : StompConninfo) (fragment : List UInt8) : StompConninfo :=
  match cinfo.prevData with
  | some prev =>
      { cinfo with
        prevData := some ⟨prev.bytes ++ fragment, prev.bytes.length + LD_MAX⟩ }
  | none => { cinfo with prevData := some ⟨fragment, LD_MAX * 2⟩ }

/-- The line that a pass of `recv_data` hands on: the memory it starts in and its length. -/
def joinedLine (cinfo : StompConninfo) (curr : List UInt8) (lineLen : Nat) : List UInt8 × Nat :=
  match cinfo.prevData with
  | some prev => (prev.bytes ++ curr.take lineLen ++ [0], lineLen + prev.bytes.length)
  | none => (curr, lineLen)

/-- The state after `frame_update` has returned `ret` with `frame`, and whether the frame was
finished. `frame_finish` links the finished frame at the tail of the bucket. -/
def afterUpdate (env : RecvEnv) (sock : Int) (st : RecvState) : Int × Frame → RecvState
  | (ret, frame) =>
      if 0 < ret then
        { cinfo := { st.cinfo with frame := none }
          bucket := st.bucket ++ [frame]
          wire := st.wire
          rands := st.rands + (FRAME_ID_LEN - 1) }
      else
        { cinfo := { st.cinfo with frame := some frame }
          bucket := st.bucket
          wire :=
            if ret < 0 then stompSendError env sock (cstring "failed to parse frame") st.wire
            else st.wire
          rands := st.rands }

/-- Free `prev_data`. -/
def RecvState.dropPrev (st : RecvState) : RecvState :=
  { st with cinfo := { st.cinfo with prevData := none } }

/-- `is_body_input` of `recv_data`. -/
def RecvState.isBodyInput (st : RecvState) : Bool :=
  match st.cinfo.frame with
  | some frame => frame.status = .inputBody
  | none => false

/-- The second half of a pass, for a line of `lineLen` bytes at `curr`: find the next position, join
the saved fragment, update the frame. -/
def recvLine (env : RecvEnv) (sock : Int) (curr : List UInt8) (lineLen : Nat) (st : RecvState) :
    List UInt8 × RecvState :=
  let next := if st.isBodyInput then curr.drop lineLen else curr.drop (lineLen + 1)
  let (line, len) := joinedLine st.cinfo curr lineLen
  if st.cinfo.frame.isSome || 0 < len then
    let updated := frameUpdate (frameFinish env st.rands) line len (prepareFrame sock st.cinfo)
    (if 0 < updated.1 && st.isBodyInput then next.drop 1 else next,
      (afterUpdate env sock st updated).dropPrev)
  else (next, st.dropPrev)

/-- One pass of the loop of `recv_data`, from the position `curr`. -/
def recvPass (env : RecvEnv) (sock : Int) :
    List UInt8 × RecvState → Loop.Step (List UInt8 × RecvState) RecvState
  | ([], st) => .leave st
  | (curr@(_ :: _), st) =>
      let (ret, lineLen) := ssplit curr st.isBodyInput
      if ret = .error ∧ isFrameName curr lineLen = .error then
        .leave { st with cinfo := savePrev st.cinfo (curr.take lineLen) }
      else .again (recvLine env sock curr lineLen st)

/-- `recv_data` on one chunk, with the fuel that is enough whenever the loop ends
(`recvData_eq_some_iff`). `none` means that the loop does not end. -/
def recvData (env : RecvEnv) (sock : Int) (chunk : List UInt8) (st : RecvState) :
    Option RecvState :=
  Loop.run (recvPass env sock) (chunk.length + 1) (chunk, st)

/-- `RECV_BUFSIZE`, the most bytes that `stomp_conn_worker` receives at a time. -/
def RECV_BUFSIZE : Nat := 4096

/-- The calls of `recv_data` that `stomp_conn_worker` makes for the chunks it receives. -/
def recvChunks (env : RecvEnv) (sock : Int) (chunks : List (List UInt8)) (st : RecvState) :
    Option RecvState :=
  chunks.foldlM (fun st chunk => recvData env sock chunk st) st

/-- `conn_finish`, called when the peer has closed the connection. -/
def connFinish (env : RecvEnv) (st : RecvState) : RecvState :=
  match st.cinfo.frame with
  | some frame =>
      if frame.status = .inputBody ∨ frame.status = .inputName then
        { st with
          bucket := st.bucket ++ [frameFinish env st.rands frame]
          rands := st.rands + (FRAME_ID_LEN - 1) }
      else st
  | none => st

end Newtmq
