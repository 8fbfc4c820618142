/-
Module: Newtmq.Core.Unpersist
Purpose: `unpersist_queue_context` of `persistent_worker.c`: read the data file in blocks, and parse
  the frames of each block.
Trusted boundary: human-reviewed spec
Main exports: BUFFER_LEN, UnpersistState, blockPass, filePass, unpersistQueueContext
-/
import Newtmq.Core.ParseFrame
import Newtmq.Core.Persistent

namespace Newtmq

/-- `BUFFER_LEN`, the size of `frame_buffer`. -/
def BUFFER_LEN : Nat := 1024

/-- The variables of `unpersist_queue_context` and the static buffer of `parse_frame`: the frame that
is being parsed, and the frames linked in `head`. -/
structure UnpersistState where
  index : Int
  frame : Option Frame
  head : List Frame
  prevBuffer : Option (List UInt8)
  rands : Nat
deriving DecidableEq, Repr

/-- One pass of the `do`-`while` loop over a block of `len` bytes in `frameBuffer`. -/
def blockPass (rand : Nat → Nat) (frameBuffer : List UInt8) (len : Nat) (st : UnpersistState) :
    Loop.Step UnpersistState (Option UnpersistState) :=
  if st.index < 0 then .leave none
  else
    match parseFrame rand (frameBuffer.drop st.index.toNat) len (st.frame.getD allocFrame)
        st.prevBuffer st.rands with
    | none => .leave none
    | some (ret, parsed) =>
        let next : UnpersistState :=
          { index := st.index + parsed.offset
            frame := if ret = .success then none else some parsed.frame
            head := if ret = .success then st.head ++ [parsed.frame] else st.head
            prevBuffer := parsed.prevBuffer
            rands := parsed.rands }
        if next.index < len then .again next else .leave (some next)

/-- One pass of the loop over the file: `fread` writes the next bytes of the file over the first bytes
of `frame_buffer`. -/
def filePass (rand : Nat → Nat) : (List UInt8 × List UInt8) × UnpersistState →
    Loop.Step ((List UInt8 × List UInt8) × UnpersistState) (Option UnpersistState)
  | ((file, frameBuffer), st) =>
      let block := file.take BUFFER_LEN
      if block = [] then .leave (some st)
      else
        let frameBuffer := block ++ frameBuffer.drop block.length
        match Loop.run (blockPass rand frameBuffer block.length) (3 * BUFFER_LEN)
            { st with index := 0 } with
        | some (some st) => .again ((file.drop BUFFER_LEN, frameBuffer), st)
        | _ => .leave none

/-- `unpersist_queue_context`: the return code, the frames, and the static buffer of `parse_frame`.
`frameBuffer` is what the array holds at first. `none` means an access outside the arrays; without a
data file, `fclose` is called on `NULL`. -/
def unpersistQueueContext (rand : Nat → Nat) (frameBuffer : List UInt8) (dirpath : List UInt8)
    (pm : PersistentManager) (prevBuffer : Option (List UInt8)) (rands : Nat) :
    Option (Ret × List Frame × Option (List UInt8)) :=
  let sentIndex := unpersistQueueInfo dirpath pm
  if sentIndex < 0 then some (.error, [], prevBuffer)
  else
    match pm.disk dirpath with
    | none => none
    | some files =>
        let file := files.data.drop sentIndex.toNat
        let st : UnpersistState :=
          { index := 0, frame := none, head := [], prevBuffer := prevBuffer, rands := rands }
        (Loop.run (filePass rand) (file.length + 1) ((file, frameBuffer), st)).join.map
          fun st => (.success, st.head, st.prevBuffer)

end Newtmq
