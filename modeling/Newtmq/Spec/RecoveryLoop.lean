/-
Module: Newtmq.Spec.RecoveryLoop
Purpose: What it means for the loop of `unpersist_queue_context` to advance within its blocks, and which
  contents of a data file let it: each block is used up by the first call.
Trusted boundary: human-reviewed spec
Main exports: FileState, recoveryStart, CallAdvances, BlockAdvances, RecoveryAdvances, readBlock,
  blocksUsedUp, UsedUpInBlocks
-/
import Newtmq.Core.Unpersist

namespace Newtmq

/-- A state of the loop over the file: what has not been read, `frame_buffer`, and the variables. -/
abbrev FileState := (List UInt8 × List UInt8) × UnpersistState

/-- The state in which the loop over the data file begins. There is none when the sent index is
negative or the data file cannot be opened. -/
def recoveryStart (frameBuffer dirpath : List UInt8) (pm : PersistentManager)
    (prevBuffer : Option (List UInt8)) (rands : Nat) : Option FileState :=
  let sentIndex := unpersistQueueInfo dirpath pm
  if sentIndex < 0 then none
  else
    (pm.disk dirpath).map fun files =>
      ((files.data.drop sentIndex.toNat, frameBuffer),
        { index := 0, frame := none, head := [], prevBuffer := prevBuffer, rands := rands })

/-- The bytes that `fread` returns. -/
def FileState.block (s : FileState) : List UInt8 :=
  s.1.1.take BUFFER_LEN

/-- `frame_buffer` after `fread`. -/
def FileState.filled (s : FileState) : List UInt8 :=
  s.block ++ s.1.2.drop s.block.length

/-- An iteration of the inner loop begins with an index inside the block, passes a length that stays in
the block, and ends with a greater index. -/
structure CallAdvances (rand : Nat → Nat) (frameBuffer : List UInt8) (len : Nat)
    (st : UnpersistState) : Prop where
  started : 0 ≤ st.index
  inside : st.index < len
  length : st.index + len ≤ len
  grows : ∃ next, st.index < next.index ∧
    (blockPass rand frameBuffer len st = .again next ∨
      blockPass rand frameBuffer len st = .leave (some next))

/-- The inner loop ends, and each of its iterations advances. -/
structure BlockAdvances (rand : Nat → Nat) (frameBuffer : List UInt8) (len : Nat)
    (st : UnpersistState) : Prop where
  ends : Loop.Terminates (blockPass rand frameBuffer len) st
  calls : ∀ later, Loop.Visits (blockPass rand frameBuffer len) st later →
    CallAdvances rand frameBuffer len later

/-- The inner loop advances in every block that is read. -/
def RecoveryAdvances (rand : Nat → Nat) (start : FileState) : Prop :=
  ∀ later, Loop.Visits (filePass rand) start later → FileState.block later ≠ [] →
    BlockAdvances rand (FileState.filled later) (FileState.block later).length
      { later.2 with index := 0 }

/-! ### Blocks that are used up -/

/-- The lines of a block, from a place with `limit` bytes to go, when nothing is left over: a piece of a
body that goes on past the block is left over, and so is more than one byte behind a frame. The result
is the frame that the block leaves unfinished. The length of a body has to end in the memory. -/
def readBlock : Nat → List UInt8 → Nat → Frame → Option (Option Frame)
  | 0, _, _, frame => some (some frame)
  | fuel + 1, memory, limit, frame =>
      if limit = 0 then some (some frame)
      else
        let isBody := frame.status = .inputBody
        let (ret, len) := ssplit (memory.take limit) isBody
        if (ret = .error ∧ isBody) ∨ updateInside memory len frame = false then none
        else
          let used := if isBody then len + (if isBl memory then 1 else 0) else len + 1
          let (complete, next) := frameUpdate id memory len frame
          if 0 < complete then (if limit ≤ used + 1 then some none else none)
          else readBlock fuel (memory.drop used) (limit - used) next

/-- No block of the file leaves anything over. -/
def blocksUsedUp : Nat → List UInt8 → List UInt8 → Option Frame → Bool
  | 0, _, _, _ => true
  | fuel + 1, file, frameBuffer, frame =>
      let block := file.take BUFFER_LEN
      let frameBuffer := block ++ frameBuffer.drop block.length
      if block = [] then true
      else
        match readBlock block.length frameBuffer block.length (frame.getD allocFrame) with
        | none => false
        | some left => blocksUsedUp fuel (file.drop BUFFER_LEN) frameBuffer left

/-- Nothing is read, or no fragment is at hand and no block leaves anything over. -/
def UsedUpInBlocks (start : FileState) : Prop :=
  start.1.1 = [] ∨
    start.2.prevBuffer = none ∧ blocksUsedUp start.1.1.length start.1.1 start.1.2 start.2.frame

instance (start : FileState) : Decidable (UsedUpInBlocks start) :=
  inferInstanceAs (Decidable (_ ∨ _))

end Newtmq
