/-
Module: Newtmq.Core.Frame
Purpose: `frame.h` and the parts of `frame.c` and `stomp.c` that work on one frame: the frame object,
  the command table, the line splitter and the state machine `frame_update`. The two C files hold
  their own copies of `ssplit`, `frame_setname`, `is_contentlen`, `get_contentlen` and
  `frame_update`; the copies agree up to what `frame_finish` does, which is a parameter here.
Trusted boundary: human-reviewed spec
Main exports: FrameStatus, Linedata, Frame, finfoArr, ssplit, stompSetdata, allocFrame,
  frameSetname, isFrameName, frameUpdate
-/
import Newtmq.Core.Common

namespace Newtmq

/-- The value of `frame->status`. The code sets one flag at a time, always after a `CLR`, so the
flag word is one of these values; `clear` is the word 0. -/
inductive FrameStatus where
  | clear
  | born
  | inputName
  | inputHeader
  | inputBody
  | inBucket
  | inQueue
deriving DecidableEq, Repr, Inhabited

/-- `linedata_t`: the array `data`, given by the bytes written to it (the code zero-fills the rest),
and `len`. -/
structure Linedata where
  data : List UInt8
  len : Nat
deriving DecidableEq, Repr, Inhabited

/-- The first `len` bytes of the array, as `fwrite` and `send` read them. -/
def Linedata.bytes (line : Linedata) : List UInt8 :=
  (line.data ++ List.replicate line.len 0).take line.len

/-- `frame_t`. The lists `h_attrs` and `h_data` are kept in list order, `cinfo` is the id of the
connection the frame came from, and a callback is the address of its function. -/
structure Frame where
  name : List UInt8
  id : List UInt8
  sock : Int
  status : FrameStatus
  contentlen : Int
  hasContentlen : Int
  hAttrs : List Linedata
  hData : List Linedata
  size : Int
  cinfo : Option (List UInt8)
  transactionCallback : Option Nat
  transactionData : Option (List UInt8)
deriving DecidableEq, Repr, Inhabited

/-- A frame object: its address, which no other object is given, and what it holds. -/
structure FrameObject where
  address : Nat
  frame : Frame
deriving DecidableEq, Repr, Inhabited

/-- The whole array, of which the written bytes are followed by zeros. -/
def Linedata.memory (line : Linedata) : List UInt8 :=
  line.data ++ List.replicate (LD_MAX - line.data.length) 0

def FRAME_ID_LEN : Nat := 32

/-- `alloc_frame`. -/
def allocFrame : Frame :=
  { name := []
    id := List.replicate FRAME_ID_LEN 0
    sock := 0
    status := .born
    contentlen := -1
    hasContentlen := 0
    hAttrs := []
    hData := []
    size := 0
    cinfo := none
    transactionCallback := none
    transactionData := none }

/-- The names of `finfo_arr`, in table order. The sentinel row is the end of the list. -/
def finfoArr : List (List UInt8) :=
  [cstring "SEND", cstring "SUBSCRIBE", cstring "CONNECT", cstring "STOMP", cstring "ACK",
    cstring "BEGIN", cstring "COMMIT", cstring "ABORT", cstring "NACK", cstring "UNSUBSCRIBE",
    cstring "DISCONNECT"]

/-! ### Line splitting

A pointer into a buffer is the list of the bytes from it to the end of the buffer. -/

/-- `IS_BL`. -/
def isBl : List UInt8 → Bool
  | [] => false
  | c :: _ => c = 0

/-- `IS_NL`. -/
def isNl : List UInt8 → Bool
  | [] => false
  | c :: _ => c = LF || c = CR

/-- The `do`-`while` loop of `ssplit`, entered with `p = start + count` at the first byte of the
list. The byte at `end` is looked at by the code but cannot change the result, since `p >= end`
stops the loop as well. -/
def ssplitScan (isBody : Bool) : List UInt8 → Nat → Ret × Nat
  | [], count => (.error, count)
  | c :: rest, count =>
      if c = 0 || (c = LF && !isBody) || LD_MAX ≤ count then (.success, count)
      else ssplitScan isBody rest (count + 1)

/-- `ssplit`: the result code and the value stored through `len`. -/
def ssplit (start : List UInt8) (isBody : Bool) : Ret × Nat :=
  if isBl start || (!isBody && isNl start) then (.success, 0)
  else ssplitScan isBody start.tail 1

/-! ### Headers and bodies -/

/-- The entries that `stomp_setdata` appends for the `len` bytes at `data`: pieces of at most
`LD_MAX` bytes. The loop runs once even for no byte; `fuel` bounds its passes. -/
def setdataEntries : Nat → List UInt8 → List Linedata
  | 0, _ => []
  | fuel + 1, data =>
      { data := data.take LD_MAX, len := min data.length LD_MAX } ::
        if LD_MAX < data.length then setdataEntries fuel (data.drop LD_MAX) else []

/-- `stomp_setdata`, appending to the list `head`. -/
def stompSetdata (data : List UInt8) (head : List Linedata) : List Linedata :=
  head ++ setdataEntries (data.length + 1) data

/-- The first row of the table whose name is at most `len` bytes long and starts the memory. -/
def findFrameName (data : List UInt8) (len : Nat) : List (List UInt8) → Option (List UInt8)
  | [] => none
  | name :: rows =>
      if len < name.length then findFrameName data len rows
      else if name.isPrefixOf data then some name
      else findFrameName data len rows

/-- `is_frame_name`. -/
def isFrameName (name : List UInt8) (len : Nat) : Ret :=
  match findFrameName name len finfoArr with
  | some _ => .success
  | none => .error

/-- `frame_setname`: `memcpy` writes the name over the start of `frame->name`. -/
def frameSetname (data : List UInt8) (len : Nat) (frame : Frame) : Ret × Frame :=
  match findFrameName data len finfoArr with
  | some name =>
      (.success,
        { frame with name := name ++ frame.name.drop name.length, status := .inputHeader })
  | none => (.error, frame)

/-- `is_contentlen`. -/
def isContentlen (input : List UInt8) (len : Nat) : Bool :=
  15 < len && (cstring "content-length:").isPrefixOf input

/-- `get_contentlen`. -/
def getContentlen (input : List UInt8) : Int :=
  atoi (input.drop 15)

/-- The part of `frame_update` that handles a line in the header: record the length, store the line.
`line` is the memory the line starts in, of which the line takes `len` bytes. -/
def frameHeaderLine (line : List UInt8) (len : Nat) (frame : Frame) : Frame :=
  if 0 < len then
    { frame with
      contentlen := if isContentlen line len then getContentlen line else frame.contentlen
      hAttrs := stompSetdata (line.take len) frame.hAttrs
      size := wrap32 (frame.size + (len + 1)) }
  else frame

/-- The part of `frame_update` that stores a piece of the body. -/
def frameBodyPiece (line : List UInt8) (len : Nat) (frame : Frame) : Frame :=
  if 0 < len then
    { frame with
      hasContentlen := wrap32 (frame.hasContentlen + len)
      hData := stompSetdata (line.take len) frame.hData
      size := wrap32 (frame.size + len) }
  else frame

/-- `frame_finish`, whose assignments are `finish`, and the increment of `size` that follows it for
the NUL that separates persistent frames. -/
def finishFrame (finish : Frame → Frame) (frame : Frame) : Frame :=
  { finish frame with size := wrap32 ((finish frame).size + 1) }

/-- `frame_update`, with `finish` for the assignments of `frame_finish`. The result is 1 when the
frame is complete, -1 when its command is unknown, 0 otherwise. The increment of `size` that follows
`frame_finish` reaches the finished object, so it is part of the frame returned with 1.

The loop `while(! (IS_NL(line)))` is entered only when `IS_NL(line)` holds, so it makes no pass. -/
def frameUpdate (finish : Frame → Frame) (line : List UInt8) (len : Nat) (frame : Frame) :
    Int × Frame :=
  match frame.status with
  | .born =>
      match frameSetname line len frame with
      | (.error, _) => (-1, frame)
      | (.success, named) => (0, { named with size := wrap32 (named.size + (len + 1)) })
  | .inputHeader =>
      if isNl line && 0 < frame.contentlen then
        (0, { frame with status := .inputBody, size := wrap32 (frame.size + 1) })
      else if isNl line && frame.contentlen = 0 then (1, finishFrame finish frame)
      else (0, frameHeaderLine line len frame)
  | .inputBody =>
      let stored := frameBodyPiece line len frame
      if stored.contentlen ≤ stored.hasContentlen then (1, finishFrame finish stored)
      else (0, stored)
  | _ => (0, frame)

end Newtmq
