/-
Module: Newtmq.Spec.SplitReads
Purpose: What it means that the line splitter reads only its input, and when it does.
Trusted boundary: human-reviewed spec
Main exports: EndsLine, Terminated, SplitsInput, ReadsOnlyInput, BufReadsInside
-/
import Newtmq.Core.SplitReads

namespace Newtmq

/-- The byte at this position ends a line, or is the only one of an empty line. -/
def EndsLine (memory : Nat → UInt8) (isBody : Bool) (p : Nat) : Prop :=
  memory p = 0 ∨ (isBody = false ∧ (memory p = LF ∨ (p = 0 ∧ memory p = CR)))

instance (memory : Nat → UInt8) (isBody : Bool) (p : Nat) : Decidable (EndsLine memory isBody p) :=
  inferInstanceAs (Decidable (_ ∨ _))

/-- One of the first `len` bytes is a terminator. -/
def Terminated (memory : Nat → UInt8) (len : Nat) (isBody : Bool) : Prop :=
  ∃ p < len, EndsLine memory isBody p

instance (memory : Nat → UInt8) (len : Nat) (isBody : Bool) : Decidable (Terminated memory len isBody) :=
  inferInstanceAs (Decidable (∃ p < len, EndsLine memory isBody p))

/-- Only bytes of the buffer are inspected, the length is that of a line in it, and the error says that
the buffer has room for no longer line and holds no terminator. -/
structure SplitsInput (memory : Nat → UInt8) (len : Nat) (isBody : Bool) (result : SsplitRun) : Prop where
  inside : ∀ p ∈ result.inspected, p < len
  length : result.count ≤ min len LD_MAX
  error : result.ret = .error ↔ len ≤ LD_MAX ∧ ¬ Terminated memory len isBody

/-- `ssplit` returns and reads only its input. -/
def ReadsOnlyInput (memory : Nat → UInt8) (len : Nat) (isBody : Bool) : Prop :=
  ∃ result, ssplitRun memory len isBody = some result ∧ SplitsInput memory len isBody result

/-- While `recv_data` reads the chunk in `buf`, `ssplit` inspects only bytes of `buf`. -/
def BufReadsInside (env : RecvEnv) (sock : Int) (chunk : List UInt8) (behind : Nat → UInt8)
    (st : RecvState) : Prop :=
  ∀ curr st', Loop.Visits (recvPass env sock) (chunk, st) (curr, st') → curr ≠ [] →
    ∃ inspected, inspectedInBuf chunk behind curr st'.isBodyInput = some inspected ∧
      ∀ p ∈ inspected, p < RECV_BUFSIZE

end Newtmq
