/-
Module: Newtmq.Core.SplitReads
Purpose: `ssplit`, of which `stomp.c` and `frame.c` have the same text, with the bytes that it inspects,
  and the array that `stomp_conn_worker` receives into.
Trusted boundary: human-reviewed spec
Main exports: SsplitRun, ssplitPass, ssplitRun, recvBuf, inspectedInBuf
-/
import Newtmq.Core.Stomp

namespace Newtmq

/-- The variables `count` and `ret` of `ssplit`, and the positions whose bytes it has inspected. -/
structure SsplitRun where
  count : Nat
  ret : Ret
  inspected : List Nat
deriving DecidableEq, Repr

/-- One pass of the loop of `ssplit`. `memory` holds the bytes from `start` on, and `end` is `len` bytes
behind `start`. -/
def ssplitPass (memory : Nat → UInt8) (len : Nat) (isBody : Bool) (st : SsplitRun) :
    Loop.Step SsplitRun SsplitRun :=
  let p := st.count + 1
  let next : SsplitRun :=
    { count := p
      ret := if len ≤ p then .error else st.ret
      -- `*p` is compared with the NUL and the new line before `p` is with `end`.
      inspected := st.inspected ++ if memory p = 0 then [p] else [p, p] }
  if memory p = 0 || (memory p = LF && !isBody) || len ≤ p || LD_MAX ≤ p then .leave next
  else .again next

/-- The positions that `IS_BL` and, outside a body, `IS_NL` inspect. -/
def startInspected (memory : Nat → UInt8) (isBody : Bool) : List Nat :=
  if isBody then [0] else if memory 0 = LF then [0, 0] else [0, 0, 0]

/-- `ssplit`. `count` is the value stored through `len`; `LD_MAX` passes are enough for the loop. -/
def ssplitRun (memory : Nat → UInt8) (len : Nat) (isBody : Bool) : Option SsplitRun :=
  let start : SsplitRun := ⟨0, .success, startInspected memory isBody⟩
  if memory 0 = 0 || (!isBody && (memory 0 = LF || memory 0 = CR)) then some start
  else Loop.run (ssplitPass memory len isBody) LD_MAX start

/-! ### The receive buffer -/

/-- The bytes of the array `buf`, cleared before `recv` writes the chunk to its start, and those `behind` it. -/
def recvBuf (chunk : List UInt8) (behind : Nat → UInt8) (p : Nat) : UInt8 :=
  if p < RECV_BUFSIZE then chunk.getD p 0 else behind p

/-- The positions of `buf` that `ssplit` inspects when `recv_data` has `curr` left of the chunk. -/
def inspectedInBuf (chunk : List UInt8) (behind : Nat → UInt8) (curr : List UInt8) (isBody : Bool) :
    Option (List Nat) :=
  let offset := chunk.length - curr.length
  (ssplitRun (fun p => recvBuf chunk behind (offset + p)) curr.length isBody).map fun run =>
    run.inspected.map (offset + ·)

end Newtmq
