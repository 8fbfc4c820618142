/-
Module: Newtmq.Spec.OtherQueue
Purpose: What it means that a queue is recovered in the same way whatever another queue holds that is
  recovered before it, and the data files for which it is.
Trusted boundary: human-reviewed spec
Main exports: leftInBuffer, recoverSecond, Independent, ReadsInside
-/
import Newtmq.Core.Unpersist

namespace Newtmq

/-! ### Two calls -/

/-- What `frame_buffer` holds after at most `fuel` blocks of a file have been read into it. -/
def bufferAfter : Nat → List UInt8 → List UInt8 → List UInt8
  | 0, _, frameBuffer => frameBuffer
  | fuel + 1, file, frameBuffer =>
      let block := file.take BUFFER_LEN
      if block = [] then frameBuffer
      else bufferAfter fuel (file.drop BUFFER_LEN) (block ++ frameBuffer.drop block.length)

/-- The bytes of the data file that `unpersist_queue_context` reads: those behind the stored index. -/
def QueueFiles.unsent (files : QueueFiles) : List UInt8 :=
  let sentIndex := files.sentIndex.getD 0
  if sentIndex < 0 then [] else files.data.drop sentIndex.toNat

/-- What a call of `unpersist_queue_context` that returns leaves in `frame_buffer`. -/
def leftInBuffer (frameBuffer dirpath : List UInt8) (pm : PersistentManager) : List UInt8 :=
  let file := (pm.files dirpath).unsent
  bufferAfter file.length file frameBuffer

/-- `unpersist_queue_context` for the directory `first` and then for `second`: what the second call
returns. It finds the static buffer of `parse_frame` as the first call left it. Its `frame_buffer` lies
where that of the first call lay, and `between` is what the calls in between make of the bytes there.
`rand()` has been called `rands` times before the first call, and `later` times before the second. -/
def recoverSecond (rand : Nat → Nat) (between : List UInt8 → List UInt8)
    (frameBuffer first second : List UInt8) (rands later : Nat) (pm : PersistentManager) :
    Option (Ret × List Frame) :=
  (unpersistQueueContext rand frameBuffer first pm none rands).bind fun (_, _, prevBuffer) =>
    (unpersistQueueContext rand (between (leftInBuffer frameBuffer first pm)) second pm prevBuffer
      later).map fun (ret, frames, _) => (ret, frames)

/-! ### Independence -/

/-- A frame apart from its id, which is random. -/
def Frame.withoutId (frame : Frame) : Frame :=
  { frame with id := [] }

/-- A directory with these files is recovered in the same way whatever the directory holds that is
recovered before it: when both recoveries return for two data directories that differ in that one only,
the second ones return the same. -/
def Independent (files : QueueFiles) : Prop :=
  ∀ (rand : Nat → Nat) (between : List UInt8 → List UInt8) (frameBuffer first second : List UInt8)
    (rands later rands' later' : Nat) (pm pm' : PersistentManager) (one two : Ret × List Frame),
    (∀ left, left.length = BUFFER_LEN → (between left).length = BUFFER_LEN) →
    frameBuffer.length = BUFFER_LEN →
    first ≠ second →
    pm.disk second = some files →
    (∀ dirpath, dirpath ≠ first → pm'.disk dirpath = pm.disk dirpath) →
    recoverSecond rand between frameBuffer first second rands later pm = some one →
    recoverSecond rand between frameBuffer first second rands' later' pm' = some two →
    one.1 = two.1 ∧ one.2.map Frame.withoutId = two.2.map Frame.withoutId

/-! ### Data files -/

/-- The loop of `unpersist_queue_context` over these bytes of a data file. -/
def recoverBytes (rand : Nat → Nat) (bytes frameBuffer : List UInt8) (rands : Nat) :
    Option UnpersistState :=
  (Loop.run (filePass rand) (bytes.length + 1)
    ((bytes, frameBuffer), ⟨0, none, [], none, rands⟩)).join

/-- The recovery of these bytes looks at no byte of `frame_buffer` that was there before: they fill it,
or what returns with some bytes behind them returns with nothing behind them. -/
def ReadsInside (bytes : List UInt8) : Prop :=
  BUFFER_LEN ≤ bytes.length ∨
    ∀ (rand : Nat → Nat) (frameBuffer : List UInt8) (rands : Nat), frameBuffer.length = BUFFER_LEN →
      (recoverBytes rand bytes frameBuffer rands).isSome → (recoverBytes rand bytes [] rands).isSome

end Newtmq
