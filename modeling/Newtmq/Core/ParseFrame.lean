/-
Module: Newtmq.Core.ParseFrame
Purpose: `parse_frame` of `frame.c`, which reads frames back from memory, with the memory accesses it
  makes: an access outside the memory at hand, or to memory that has been freed, has no result.
Trusted boundary: human-reviewed spec
Main exports: ssplitIn, ParseState, parsePass, parseFrame
-/
import Newtmq.Library.Loop
import Newtmq.Core.Frame

namespace Newtmq

/-- `ssplit` on the memory from `start` on, with `end` `limit` bytes after `start`. When `end` lies
outside the memory, the loop has to find the end of the line inside. The byte at `end`, which decides
nothing, does not count (see `Newtmq.Core.SplitReads`). -/
def ssplitIn (memory : List UInt8) (limit : Nat) (isBody : Bool) : Option (Ret × Nat) :=
  if limit ≤ memory.length then some (ssplit (memory.take limit) isBody)
  else
    match ssplit memory isBody with
    | (.success, len) => some (.success, len)
    | (.error, _) => none

/-- `atoi` finds the end of the number inside the memory. -/
def atoiInside (input : List UInt8) : Bool :=
  let number := input.dropWhile isspace
  match number with
  | [] => false
  | c :: rest => !((if c = 45 ∨ c = 43 then rest else number).dropWhile isdigit).isEmpty

/-- `frame_update` stays inside the memory. -/
def updateInside (line : List UInt8) (len : Nat) (frame : Frame) : Bool :=
  !(frame.status = .inputHeader && isContentlen line len) || atoiInside (line.drop 15)

/-- The assignments of `frame_finish` in `frame.c`. -/
def parseFinish (rand : Nat → Nat) (rands : Nat) (frame : Frame) : Frame :=
  { frame with status := .clear, id := genRandom rand rands FRAME_ID_LEN }

/-- The variables of the loop of `parse_frame`: `curr` as a distance from `input`, the frame, the
static `prev_buffer`, the value stored through `offset`, and the number of calls of `rand()`. -/
structure ParseState where
  curr : Nat
  frame : Frame
  prevBuffer : Option (List UInt8)
  offset : Int
  rands : Nat
deriving DecidableEq, Repr

/-- One pass of the loop of `parse_frame`; `memory` is what can be read from `input` on. The loop is
left with the return code, or with `none` when a pass accesses memory that is not its own. -/
def parsePass (rand : Nat → Nat) (memory : List UInt8) (inputLen : Nat) (st : ParseState) :
    Loop.Step ParseState (Option (Ret × ParseState)) :=
  if inputLen ≤ st.curr then .leave (some (.error, st))
  else
    let line := memory.drop st.curr
    let isBody := st.frame.status = .inputBody
    match ssplitIn line (inputLen - st.curr) isBody with
    | none => .leave none
    | some (ret, lineLen) =>
        if ret = .error ∧ isBody then
          -- The new part of the buffer has `lineLen` bytes, and `memset` clears `inputLen`.
          if lineLen < inputLen then .leave none
          else
            .leave (some (.error,
              { st with prevBuffer := some (st.prevBuffer.getD [] ++ line.take lineLen) }))
        else if st.prevBuffer.isSome then
          -- The line is handed on after it has been freed.
          .leave none
        else if updateInside line lineLen st.frame then
          let next :=
            if isBody then st.curr + lineLen + (if isBl line then 1 else 0)
            else st.curr + lineLen + 1
          let updated := frameUpdate (parseFinish rand st.rands) line lineLen st.frame
          if 0 < updated.1 then
            .leave (some (.success,
              { st with
                frame := updated.2
                offset := next + 1
                rands := st.rands + (FRAME_ID_LEN - 1) }))
          else .again { st with curr := next, frame := updated.2, offset := next + 1 }
        else .leave none

/-- `parse_frame`. Every pass that goes round again moves `curr` forward, so the fuel is enough. -/
def parseFrame (rand : Nat → Nat) (memory : List UInt8) (inputLen : Nat) (frame : Frame)
    (prevBuffer : Option (List UInt8)) (rands : Nat) : Option (Ret × ParseState) :=
  (Loop.run (parsePass rand memory inputLen) (inputLen + 1)
    { curr := 0, frame := frame, prevBuffer := prevBuffer, offset := -1, rands := rands }).join

end Newtmq
