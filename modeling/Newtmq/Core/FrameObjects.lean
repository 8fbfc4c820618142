/-
Module: Newtmq.Core.FrameObjects
Purpose: `recv_data` and `conn_finish` on frame objects: `cinfo->frame` and the links of the bucket are
  addresses, and `frame_update` writes to the object that `cinfo->frame` points to.
Trusted boundary: human-reviewed spec
Main exports: UpdateCall, ObjectState, ObjectState.view, objectLine, objectPass, objectData,
  objectChunks, objectFinish
-/
import Newtmq.Core.Stomp

namespace Newtmq

/-- One call of `frame_update`: the object, its status before the call, the memory that the line starts
in, its length, and the result. -/
structure UpdateCall where
  address : Nat
  status : FrameStatus
  line : List UInt8
  len : Nat
  ret : Int
deriving DecidableEq, Repr

/-- The call sets the name of its object: `frame_setname` has succeeded. -/
def UpdateCall.setsName (call : UpdateCall) : Bool :=
  call.status = .born && call.ret = 0

/-- What `recv_data` reads and writes, with the objects that `alloc_frame` has returned for it: the
object at an address is the one at this place of the list. `calls` is a record. -/
structure ObjectState where
  id : List UInt8
  frame : Option Nat
  prevData : Option PrevData
  objects : List Frame
  bucket : List Nat
  wire : List SendMsg
  rands : Nat
  calls : List UpdateCall
deriving DecidableEq, Repr

namespace ObjectState

/-- A new connection with this id. -/
def start (id : List UInt8) (rands : Nat) : ObjectState :=
  ⟨id, none, none, [], [], [], rands, []⟩

/-- What the object at an address holds. -/
def object (s : ObjectState) (address : Nat) : Frame :=
  s.objects.getD address allocFrame

def cinfo (s : ObjectState) : StompConninfo :=
  { id := s.id, frame := s.frame.map s.object, prevData := s.prevData }

/-- The state with each address replaced by what the object holds. -/
def view (s : ObjectState) : RecvState :=
  { cinfo := s.cinfo, bucket := s.bucket.map s.object, wire := s.wire, rands := s.rands }

/-- `prepare_frame`, with the address that `cinfo->frame` then holds. -/
def prepareFrame (sock : Int) (s : ObjectState) : Nat × ObjectState :=
  match s.frame with
  | some address => (address, s)
  | none =>
      (s.objects.length,
        { s with
          frame := some s.objects.length
          objects := s.objects ++ [{ allocFrame with sock := sock, cinfo := some s.id }] })

/-- `frame_update` on the object at `address`. `frame_finish` links the object at the tail of the
bucket. -/
def frameUpdate (env : RecvEnv) (line : List UInt8) (len address : Nat) (s : ObjectState) :
    Int × ObjectState :=
  let (ret, frame) := Newtmq.frameUpdate (frameFinish env s.rands) line len (s.object address)
  (ret,
    { s with
      objects := s.objects.set address frame
      bucket := if 0 < ret then s.bucket ++ [address] else s.bucket
      rands := if 0 < ret then s.rands + (FRAME_ID_LEN - 1) else s.rands
      calls := s.calls ++ [⟨address, (s.object address).status, line, len, ret⟩] })

/-- What `recv_data` does after `frame_update` has returned `ret`. -/
def afterUpdate (env : RecvEnv) (sock : Int) (ret : Int) (s : ObjectState) : ObjectState :=
  if 0 < ret then { s with frame := none }
  else if ret < 0 then
    { s with wire := stompSendError env sock (cstring "failed to parse frame") s.wire }
  else s

end ObjectState

/-- The second half of a pass of `recv_data`. -/
def objectLine (env : RecvEnv) (sock : Int) (curr : List UInt8) (lineLen : Nat) (s : ObjectState) :
    List UInt8 × ObjectState :=
  let isBodyInput := s.view.isBodyInput
  let next := if isBodyInput then curr.drop lineLen else curr.drop (lineLen + 1)
  let (line, len) := joinedLine s.cinfo curr lineLen
  if s.frame.isSome || 0 < len then
    let (address, prepared) := s.prepareFrame sock
    let (ret, updated) := prepared.frameUpdate env line len address
    (if 0 < ret && isBodyInput then next.drop 1 else next,
      { updated.afterUpdate env sock ret with prevData := none })
  else (next, { s with prevData := none })

/-- One pass of the loop of `recv_data`, from the position `curr`. -/
def objectPass (env : RecvEnv) (sock : Int) :
    List UInt8 × ObjectState → Loop.Step (List UInt8 × ObjectState) ObjectState
  | ([], s) => .leave s
  | (curr@(_ :: _), s) =>
      let (ret, lineLen) := ssplit curr s.view.isBodyInput
      if ret = .error ∧ isFrameName curr lineLen = .error then
        .leave { s with prevData := (savePrev s.cinfo (curr.take lineLen)).prevData }
      else .again (objectLine env sock curr lineLen s)

/-- `recv_data` on one chunk. `none` means that the loop does not end. -/
def objectData (env : RecvEnv) (sock : Int) (chunk : List UInt8) (s : ObjectState) :
    Option ObjectState :=
  Loop.run (objectPass env sock) (chunk.length + 1) (chunk, s)

/-- The calls of `recv_data` that `stomp_conn_worker` makes for the chunks it receives. -/
def objectChunks (env : RecvEnv) (sock : Int) (chunks : List (List UInt8)) (s : ObjectState) :
    Option ObjectState :=
  chunks.foldlM (fun s chunk => objectData env sock chunk s) s

/-- `conn_finish`. -/
def objectFinish (env : RecvEnv) (s : ObjectState) : ObjectState :=
  match s.frame with
  | some address =>
      if (s.object address).status = .inputBody ∨ (s.object address).status = .inputName then
        { s with
          objects := s.objects.set address (frameFinish env s.rands (s.object address))
          bucket := s.bucket ++ [address]
          rands := s.rands + (FRAME_ID_LEN - 1) }
      else s
  | none => s

end Newtmq
